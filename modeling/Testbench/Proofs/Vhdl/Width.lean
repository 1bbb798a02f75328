import Testbench.Vhdl.Range
import Mathlib.Order.Interval.Finset.Nat

/-!
# Widths of ranges

The width of a range is the number of indices between its bounds, whichever of them is the greater
one.  These are the indices that the range covers, except when it runs away from its right bound:
then it covers none, although its width is not zero.
-/

namespace Testbench.Vhdl

variable {l m w : Nat} {d : Direction} {r : Range}

/-! ### Indices -/

/-- The indices that a range from `l` to `m` covers: it runs down to `m` or up to `m`. -/
def Direction.indices (l m : Nat) : Direction → Finset Nat
  | .down => Finset.Icc m l
  | .up => Finset.Icc l m

/-- A range covers all indices between its bounds, or none. -/
theorem Direction.indices_eq_Icc (h : (d.indices l m).Nonempty) :
  d.indices l m = Finset.Icc (min l m) (max l m)
  := by
  cases d with
  | down =>
    have down : m ≤ l := Finset.nonempty_Icc.1 h
    rw [indices, Nat.min_eq_right down, Nat.max_eq_left down]
  | up =>
    have up : l ≤ m := Finset.nonempty_Icc.1 h
    rw [indices, Nat.min_eq_left up, Nat.max_eq_right up]

/-! ### Widths -/

namespace Range

/-- A range has a width if its bounds are numbers that lie less than the greatest bound apart. -/
theorem width?_eq_some_iff :
  r.width? = some w ↔
    ∃ l m, r.left = .int l ∧ r.right = .int m ∧ (Finset.Icc (min l m) (max l m)).card = w ∧
      w < Bound.limit
  := by
  have between : ∀ l m : Nat,
      (Finset.Icc (min l m) (max l m)).card = (l - m) + (m - l) + 1 := by
    intro l m
    rw [Nat.card_Icc]
    omega
  obtain ⟨left, right, d⟩ := r
  cases left with
  | expr t => simp [width?, Bound.int?]
  | int l =>
    cases right with
    | expr t => simp [width?, Bound.int?]
    | int m =>
      simp only [width?, Bound.int?, Option.bind_eq_bind, Option.bind_some, Bound.int.injEq,
        exists_and_left, exists_eq_left', between]
      split
      · next h =>
        rw [Option.some.injEq]
        constructor
        · rintro rfl
          exact ⟨rfl, h⟩
        · exact fun h => h.1
      · next h =>
        simp only [reduceCtorEq, false_iff, not_and]
        rintro rfl
        exact h

/-- The width of a range is the number of indices between its bounds. -/
theorem width?_eq_card_Icc (left : r.left = .int l) (right : r.right = .int m)
    (h : r.width? = some w) :
  w = (Finset.Icc (min l m) (max l m)).card
  := by
  obtain ⟨l', m', left', right', rfl, -⟩ := width?_eq_some_iff.1 h
  obtain rfl := Bound.int.inj (left.symm.trans left')
  obtain rfl := Bound.int.inj (right.symm.trans right')
  rfl

theorem pos_of_width? (h : r.width? = some w) :
  0 < w
  := by
  obtain ⟨l, m, -, -, rfl, -⟩ := width?_eq_some_iff.1 h
  have between : min l m ≤ max l m := by omega
  exact Finset.card_pos.2 (Finset.nonempty_Icc.2 between)

/-- The width of a range is the number of indices that it covers exactly if it covers any. -/
theorem width?_eq_card_indices_iff (left : r.left = .int l) (right : r.right = .int m)
    (h : r.width? = some w) :
  w = (r.direction.indices l m).card ↔ (r.direction.indices l m).Nonempty
  := by
  constructor
  · rintro eq
    rw [← Finset.card_pos, ← eq]
    exact pos_of_width? h
  · intro covers
    rw [Direction.indices_eq_Icc covers]
    exact width?_eq_card_Icc left right h

end Range

end Testbench.Vhdl
