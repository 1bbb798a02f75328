import Testbench.Proofs.Stimulus.Plan
import Testbench.Proofs.Stimulus.Word
import Testbench.Proofs.Vhdl.Width

/-!
# Values of vectors

A vector with up to 64 elements runs through six literals, which write six numbers in as many
binary digits as the vector has elements; any other vector runs through values that do not depend
on its width.
-/

namespace Testbench.Stimulus

open Vhdl

variable {n width w l m : Nat} {t : Text} {p : Port} {r : Range} {delay : Delay}

/-! ### Literals -/

/-- A text writes a number in `width` binary digits, the most significant first. -/
structure IsLiteral (width n : Nat) (t : Text) : Prop where
  length : t.length = width
  digits : ∀ c ∈ t, c = '0' ∨ c = '1'
  value : Nat.ofDigitChars 2 t 0 = n

/-- A number is written in `width` digits if it has no more. -/
theorem isLiteral_binary (positive : 0 < width) (h : n < 2 ^ width) :
  IsLiteral width n (binary width n)
  where
  length := by
    have digits : (Nat.toDigits 2 n).length ≤ width :=
      (Nat.length_toDigits_le_iff (by decide) positive).2 h
    rw [binary, List.length_leftpad, Nat.max_eq_left digits]
  digits _ hc := mem_binary hc
  value := by
    -- The zeros in front do not count.
    rw [binary, List.leftpad, Nat.ofDigitChars_append, Nat.ofDigitChars_replicate_zero,
      Nat.mul_zero, Nat.ofDigitChars_toDigits (by decide) (by decide)]

example : binary 8 0x55 = "01010101" := by decide

/-! ### Values -/

/-- A vector with up to 64 elements runs through literals. -/
theorem vectorValues_of_le (h : r.width? = some w) (hw : w ≤ 64) :
  vectorValues (some r) = (vectorNumbers w).map fun n => .literal (binary w n)
  := by
  simp only [vectorValues, h, Word.size, if_pos hw, vectorNumbers?_eq (Range.pos_of_width? h) hw,
    Option.getD_some]

/-- A vector with more elements, or with a number of elements that is not known, runs through
values that do not depend on it. -/
theorem vectorValues_of_lt (h : ∀ w, r.width? = some w → 64 < w) :
  vectorValues (some r) = fillValues r.right
  := by
  simp only [vectorValues]
  split
  · next w hw => rw [Word.size, if_neg (Nat.not_le_of_lt (h w hw))]
  · rfl

theorem values_of_range (h : p.range = some r) :
  values p = vectorValues (some r)
  := by
  have vector : p.type.kind = .vector := by simpa [h, DataType.isVector] using p.range_isSome.symm
  simp only [values, vector, h]

/-- A vector that is driven has the shape that its width asks for.  Up to 64 elements it runs
through six literals with a digit for each element: zero, one, the highest bit, all bits, and the
bits with even and with odd indices; counting them overflows nowhere.  Otherwise it is cleared, has
the bit at its right bound set, is filled, and is cleared again. -/
theorem sequence_of_isVector (vector : p.type.isVector) (delay : Delay) :
  ∃ r, p.range = some r ∧
    (∀ w, r.width? = some w → w ≤ 64 →
      ∃ even odd texts,
        (∀ i, even.testBit i = (decide (i < w) && i % 2 == 0)) ∧
        (∀ i, odd.testBit i = (decide (i < w) && i % 2 == 1)) ∧
        vectorNumbers? w = some [0, 1, 2 ^ (w - 1), 2 ^ w - 1, even, odd] ∧
        List.Forall₂ (IsLiteral w) [0, 1, 2 ^ (w - 1), 2 ^ w - 1, even, odd] texts ∧
        sequence p delay = texts.map (⟨.literal ·, delay⟩)) ∧
    ((∀ w, r.width? = some w → 64 < w) →
      sequence p delay =
        [⟨.fill false, delay⟩, ⟨.setBit r.right, delay⟩, ⟨.fill true, delay⟩, ⟨.fill false, delay⟩])
  := by
  have ranged : p.range.isSome := p.range_isSome.trans vector
  obtain ⟨r, range⟩ := Option.isSome_iff_exists.1 ranged
  refine ⟨r, range, ?_, ?_⟩
  · intro w width few
    have positive := Range.pos_of_width? width
    use evenBits &&& 2 ^ w - 1, oddBits &&& 2 ^ w - 1, (vectorNumbers w).map (binary w)
    refine ⟨testBit_and_mask few testBit_evenBits, testBit_and_mask few testBit_oddBits,
      vectorNumbers?_eq positive few, ?_, ?_⟩
    · apply List.forall₂_map_right_iff.2
      apply List.forall₂_same.2
      intro n hn
      apply isLiteral_binary positive (lt_of_mem_vectorNumbers positive hn)
    · rw [sequence, values_of_range range, vectorValues_of_le width few, List.map_map, List.map_map]
      rfl
  · intro many
    rw [sequence, values_of_range range, vectorValues_of_lt many]
    rfl

/-- An input with a range. -/
def rangedInput (r : Range) : Port :=
  ⟨⟨"word", by decide⟩, .input, .unsigned, some r, none, rfl⟩

/-- A vector of 64 elements, all of whose bits make a word, runs through literals, and a vector of
as many elements as there are words does not. -/
theorem sequence_rangedInput :
  (∃ texts,
    List.Forall₂ (IsLiteral 64)
      [0, 1, 2 ^ 63, 2 ^ 64 - 1, 0x5555555555555555, 0xAAAAAAAAAAAAAAAA] texts ∧
    sequence (rangedInput ⟨.int 63, .int 0, .down⟩) 10 = texts.map (⟨.literal ·, 10⟩)) ∧
  sequence (rangedInput ⟨.int (2 ^ 64 - 1), .int 0, .down⟩) 10 =
    [⟨.fill false, 10⟩, ⟨.setBit (.int 0), 10⟩, ⟨.fill true, 10⟩, ⟨.fill false, 10⟩]
  := by
  constructor
  · obtain ⟨r, range, narrow, -⟩ :=
      sequence_of_isVector (p := rangedInput ⟨.int 63, .int 0, .down⟩) rfl 10
    obtain rfl := Option.some.inj range
    obtain ⟨even, odd, texts, -, -, numbers, literals, eq⟩ := narrow 64 (by decide) le_rfl
    have counted : vectorNumbers? 64 =
        some [0, 1, 2 ^ 63, 2 ^ 64 - 1, 0x5555555555555555, 0xAAAAAAAAAAAAAAAA] := by decide
    rw [← Option.some.inj (counted.symm.trans numbers)] at literals
    use texts
  · obtain ⟨r, range, -, wide⟩ :=
      sequence_of_isVector (p := rangedInput ⟨.int (2 ^ 64 - 1), .int 0, .down⟩) rfl 10
    obtain rfl := Option.some.inj range
    have unknown : (⟨.int (2 ^ 64 - 1), .int 0, .down⟩ : Range).width? = none := by decide
    apply wide
    intro w width
    rw [unknown] at width
    contradiction

/-! ### Digits and elements -/

/-- A literal that a vector runs through has as many digits as the range of the vector is wide. -/
theorem length_of_mem_sequence (range : p.range = some r) (width : r.width? = some w) {s : Step}
    (hs : s ∈ sequence p delay) (literal : s.value = .literal t) :
  t.length = w
  := by
  obtain ⟨v, hv, rfl⟩ := List.mem_map.1 hs
  obtain rfl : v = .literal t := literal
  rw [values_of_range range] at hv
  by_cases few : w ≤ 64
  · have positive := Range.pos_of_width? width
    rw [vectorValues_of_le width few] at hv
    obtain ⟨n, hn, eq⟩ := List.mem_map.1 hv
    obtain rfl := Value.literal.inj eq
    apply (isLiteral_binary positive (lt_of_mem_vectorNumbers positive hn)).length
  · have many : ∀ w', r.width? = some w' → 64 < w' := by
      intro w' width'
      rw [← Option.some.inj (width.symm.trans width')]
      exact Nat.lt_of_not_le few
    rw [vectorValues_of_lt many] at hv
    simp [fillValues] at hv

/-- The width of a range between numbers is the number of indices that it covers, and the literals
of a vector with this range have a digit for each of its elements, exactly if the range covers any
index: a range that runs away from its right bound has the width of the range that runs to it. -/
theorem width?_eq_card_indices (left : r.left = .int l) (right : r.right = .int m)
    (width : r.width? = some w) :
  w = (Finset.Icc (min l m) (max l m)).card ∧
    (w = (r.direction.indices l m).card ↔ (r.direction.indices l m).Nonempty) ∧
    ∀ p : Port, p.range = some r → ∀ delay, ∀ s ∈ sequence p delay, ∀ t, s.value = .literal t →
      (t.length = (r.direction.indices l m).card ↔ (r.direction.indices l m).Nonempty)
  := by
  have covers := Range.width?_eq_card_indices_iff left right width
  refine ⟨Range.width?_eq_card_Icc left right width, covers, ?_⟩
  intro p range delay s hs t literal
  rw [length_of_mem_sequence range width hs literal]
  exact covers

/-- A byte has eight indices, and a digit for each of them in its literals. -/
theorem width?_eq_card_indices_byte :
  (⟨.int 7, .int 0, .down⟩ : Range).width? = some 8 ∧ (Direction.down.indices 7 0).card = 8 ∧
    ∀ s ∈ sequence (rangedInput ⟨.int 7, .int 0, .down⟩) 10, ∀ t, s.value = .literal t →
      t.length = 8
  := by
  have width : (⟨.int 7, .int 0, .down⟩ : Range).width? = some 8 := by decide
  have covers : (Direction.down.indices 7 0).Nonempty := by decide
  obtain ⟨-, eq, literals⟩ := width?_eq_card_indices rfl rfl width
  refine ⟨width, (eq.2 covers).symm, ?_⟩
  intro s hs t literal
  rw [eq.2 covers]
  apply (literals _ rfl 10 s hs t literal).2 covers

/-- The range `0 downto 7` is eight wide and covers no index. -/
theorem not_width?_eq_card_indices :
  ¬∀ (t : Text) (r : Range) (l m w : Nat), Range.ofText t = .ok r → r.left = .int l →
      r.right = .int m → r.width? = some w → w = (r.direction.indices l m).card
  := by
  intro covers
  have read : Range.ofText "0 downto 7" = .ok ⟨.int 0, .int 7, .down⟩ := by decide +kernel
  have eight := covers "0 downto 7" ⟨.int 0, .int 7, .down⟩ 0 7 8 read rfl rfl (by decide)
  revert eight
  decide

end Testbench.Stimulus
