import Testbench.Stimulus.Plan
import Mathlib.Algebra.Order.Ring.Nat

/-!
# Words as numbers

An operation on words that has a result is the operation on numbers, because no word that a plan
counts in loses bits.  This gives the number of rows of a table, the bits of the number of a row,
and the values of a vector as numbers: the word with the lowest bits set is a power of two less
one, also when all bits of the word are set.
-/

namespace Testbench.Stimulus

variable {a i k n most width : Nat}

/-! ### Operations -/

namespace Word

/-- A number that is counted in 32 bits says to shift by itself. -/
theorem places_eq (h : n < 2 ^ 32) :
  places n = n
  := Nat.mod_eq_of_lt h

/-- Moving the lowest bit up gives a power of two, as long as it stays in the word. -/
theorem shiftLeft?_one (k : Nat) :
  shiftLeft? 1 k = if k < 64 then some (2 ^ k) else none
  := by
  rw [shiftLeft?, size]
  split
  · next h =>
    have bound : 2 ^ k < limit := Nat.pow_lt_pow_right (by decide) h
    rw [Nat.one_shiftLeft, Nat.mod_eq_of_lt bound]
  · rfl

/-- Moving bits down divides by a power of two. -/
theorem shiftRight?_eq (a k : Nat) :
  shiftRight? a k = if k < 64 then some (a / 2 ^ k) else none
  := by
  rw [shiftRight?, size, Nat.shiftRight_eq_div_pow]

theorem sub?_eq (h : k ≤ a) :
  sub? a k = some (a - k)
  := if_pos h

end Word

/-! ### Counting rows -/

/-- A table has a row for each text of `n` binary digits, as long as it may have so many. -/
theorem rowCount_eq (hn : n < 2 ^ 32) (hm : most < Word.limit) :
  rowCount n most = min (2 ^ n) most
  := by
  rw [rowCount, Word.places_eq hn, Word.shiftLeft?_one]
  split
  · rfl
  · next h =>
    -- Neither the greatest word nor the power of two can be reached.
    have power : Word.limit ≤ 2 ^ n := Nat.pow_le_pow_right (by decide) (Nat.le_of_not_lt h)
    have last : most ≤ Word.last := Nat.le_sub_one_of_lt hm
    rw [Option.getD_none, Nat.min_eq_right last, Nat.min_eq_right (hm.le.trans power)]

/-- The bits of a word are those of the number, and none beyond the word. -/
theorem wordBit_eq (hi : i < 2 ^ 32) (n : Nat) :
  wordBit n i = (decide (i < 64) && n.testBit i)
  := by
  rw [wordBit, Word.places_eq hi, Word.shiftRight?_eq]
  split
  · next h =>
    rw [Option.getD_some, Nat.testBit_eq_decide_div_mod_eq, Nat.and_one_is_mod, decide_eq_true h,
      Bool.true_and]
    rfl
  · next h => rw [Option.getD_none, decide_eq_false h, Bool.false_and]; rfl

/-- No bit of a word lies beyond it. -/
theorem testBit_word (hn : n < Word.limit) (i : Nat) :
  (decide (i < 64) && n.testBit i) = n.testBit i
  := by
  by_cases h : i < 64
  · rw [decide_eq_true h, Bool.true_and]
  · have bound : n < 2 ^ i := hn.trans_le (Nat.pow_le_pow_right (by decide) (Nat.le_of_not_lt h))
    rw [Nat.testBit_lt_two_pow bound, Bool.and_false]

/-! ### Numbers of a vector -/

/-- The lowest `width` bits of a word make the greatest number with so many bits. -/
theorem mask?_eq (h : width ≤ 64) :
  mask? width = some (2 ^ width - 1)
  := by
  rw [mask?]
  split
  · next whole => rw [whole]; rfl
  · next part =>
    have small : width < 64 := lt_of_le_of_ne h part
    rw [Word.shiftLeft?_one, if_pos small, Option.bind_eq_bind, Option.bind_some,
      Word.sub?_eq Nat.one_le_two_pow]

theorem testBit_evenBits :
  ∀ i < 64, evenBits.testBit i = (i % 2 == 0)
  := by
  decide

theorem testBit_oddBits :
  ∀ i < 64, oddBits.testBit i = (i % 2 == 1)
  := by
  decide

/-- The bits of a pattern that a mask of `width` bits lets through. -/
theorem testBit_and_mask (h : width ≤ 64) {word : Nat} {p : Nat → Bool}
    (hp : ∀ i < 64, word.testBit i = p i) (i : Nat) :
  (word &&& 2 ^ width - 1).testBit i = (decide (i < width) && p i)
  := by
  rw [Nat.testBit_and, Nat.testBit_two_pow_sub_one]
  by_cases inside : i < width
  · rw [hp i (inside.trans_le h), Bool.and_comm]
  · rw [decide_eq_false inside, Bool.and_false, Bool.false_and]

/-- The values of a vector with `width` elements as numbers. -/
def vectorNumbers (width : Nat) : List Nat :=
  [0, 1, 2 ^ (width - 1), 2 ^ width - 1, evenBits &&& 2 ^ width - 1, oddBits &&& 2 ^ width - 1]

/-- Nothing overflows when the values of a vector with up to 64 elements are counted. -/
theorem vectorNumbers?_eq (positive : 0 < width) (h : width ≤ 64) :
  vectorNumbers? width = some (vectorNumbers width)
  := by
  have one : 1 ≤ width := positive
  have high : width - 1 < 64 := by omega
  simp only [vectorNumbers?, vectorNumbers, mask?_eq h, Word.sub?_eq one, Word.shiftLeft?_one,
    if_pos high, Option.bind_eq_bind, Option.bind_some, Option.pure_def]

example : vectorNumbers? 8 = some [0, 1, 0x80, 0xFF, 0x55, 0xAA] := by decide

/-- The values of a vector have no more bits than the vector has elements. -/
theorem lt_of_mem_vectorNumbers (positive : 0 < width) (h : n ∈ vectorNumbers width) :
  n < 2 ^ width
  := by
  have one : 1 < 2 ^ width := Nat.one_lt_two_pow positive.ne'
  have mask : 2 ^ width - 1 < 2 ^ width := Nat.sub_one_lt_of_lt one
  simp only [vectorNumbers, List.mem_cons, List.not_mem_nil, or_false] at h
  rcases h with rfl | rfl | rfl | rfl | rfl | rfl
  · exact one.pos
  · exact one
  · exact Nat.pow_lt_pow_right (by decide) (Nat.sub_one_lt_of_lt positive)
  · exact mask
  · exact Nat.and_le_right.trans_lt mask
  · exact Nat.and_le_right.trans_lt mask

end Testbench.Stimulus
