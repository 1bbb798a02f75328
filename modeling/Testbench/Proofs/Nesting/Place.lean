import Testbench.Vhdl.Nesting
import Mathlib.Tactic.Common

/-!
# Places at the outer level

`splitWhere` finds the first place at the outer level with a property.  `Misses` says that
a part of a text has no such place, and with it the result of a search is told exactly: a
text is split at a place at the outer level that has the property, behind a part that
misses it.

`Nesting.Lacks x t` says that `x` does not stand at the outer level in `t`.
-/

namespace Testbench.Vhdl

variable {p q : Option Char → Text → Bool} {n : Nesting} {prev : Option Char}
  {s t r before rest : Text} {x c : Char}

/-- The character before the text behind `s`, where `prev` is the one before `s`. -/
def behind (prev : Option Char) : Text → Option Char
  | [] => prev
  | c :: s => behind (some c) s

@[simp]
theorem behind_nil (prev : Option Char) :
  behind prev [] = prev
  := rfl

@[simp]
theorem behind_cons (prev : Option Char) (c : Char) (s : Text) :
  behind prev (c :: s) = behind (some c) s
  := rfl

/-- The character before the text behind `s` is the last one of `s`, if there is one. -/
theorem behind_eq (prev : Option Char) (s : Text) :
  behind prev s = s.getLast?.or prev
  := by
  induction s generalizing prev with
  | nil => rfl
  | cons c s ih =>
    rw [behind_cons, ih, List.getLast?_cons]
    cases s.getLast? <;> rfl

/-! ### Missing a property -/

/-- No place in `s` is at the outer level and has the property `p`, where `s` is read from
a nesting and behind a character, and `r` follows it. -/
def Misses (p : Option Char → Text → Bool) : Nesting → Option Char → Text → Text → Prop
  | _, _, [], _ => True
  | n, prev, c :: s, r => ¬(n.isOuter ∧ p prev (c :: (s ++ r))) ∧ Misses p (n.next c) (some c) s r

@[simp]
theorem misses_nil :
  Misses p n prev [] r
  := trivial

@[simp]
theorem misses_cons :
  Misses p n prev (c :: s) r ↔
    ¬(n.isOuter ∧ p prev (c :: (s ++ r))) ∧ Misses p (n.next c) (some c) s r
  := Iff.rfl

/-- A text misses a property exactly if its parts do. -/
theorem misses_append :
  Misses p n prev (s ++ t) r ↔
    Misses p n prev s (t ++ r) ∧ Misses p (n.after s) (behind prev s) t r
  := by
  induction s generalizing n prev with
  | nil => simp
  | cons c s ih =>
    rw [List.cons_append, misses_cons, misses_cons, ih, List.append_assoc, and_assoc]
    rfl

/-- A part misses a property exactly if none of its places at the outer level has it. -/
theorem misses_iff :
  Misses p n prev s r ↔
    ∀ a b, s = a ++ b → b ≠ [] → (n.after a).isOuter → ¬p (behind prev a) (b ++ r)
  := by
  induction s generalizing n prev with
  | nil => simp
  | cons c s ih =>
    rw [misses_cons, ih]
    constructor
    · rintro ⟨here, there⟩ a b split ne outer found
      cases a with
      | nil =>
        obtain rfl : c :: s = b := split
        exact here ⟨outer, found⟩
      | cons d a =>
        obtain ⟨rfl, rfl⟩ := List.cons.inj split
        exact there a b rfl ne outer found
    · intro h
      constructor
      · rintro ⟨outer, found⟩
        exact h [] (c :: s) rfl (by simp) outer found
      · rintro a b rfl
        exact h (c :: a) b rfl

/-- A search goes on behind a part that misses the property. -/
theorem splitWhere_append_of_misses (h : Misses p n prev s r) :
  splitWhere p n prev (s ++ r) =
    (splitWhere p (n.after s) (behind prev s) r).map fun (b, t) => (s ++ b, t)
  := by
  induction s generalizing n prev with
  | nil => simp
  | cons c s ih =>
    obtain ⟨here, there⟩ := h
    rw [List.cons_append, splitWhere, if_neg (by simpa using here), ih there, Option.map_map]
    rfl

/-- A text is split at a place exactly if this place is at the outer level and has the
property, and no place before it is and has. -/
theorem splitWhere_eq_some_iff :
  splitWhere p n prev t = some (before, rest) ↔
    t = before ++ rest ∧ Misses p n prev before rest ∧ rest ≠ [] ∧ (n.after before).isOuter ∧
      p (behind prev before) rest
  := by
  constructor
  · intro h
    induction t generalizing n prev before rest with
    | nil => simp [splitWhere] at h
    | cons c r ih =>
      rw [splitWhere] at h
      split at h
      · next found =>
        simp only [Option.some.injEq, Prod.mk.injEq] at h
        obtain ⟨rfl, rfl⟩ := h
        simpa using found
      · next other =>
        simp only [Option.map_eq_some_iff, Prod.exists, Prod.mk.injEq] at h
        obtain ⟨b, rest, h, rfl, rfl⟩ := h
        obtain ⟨rfl, misses, ne, outer, found⟩ := ih h
        use rfl, ⟨by simpa using other, misses⟩, ne, outer, found
  · rintro ⟨rfl, misses, ne, outer, found⟩
    rw [splitWhere_append_of_misses misses]
    cases rest with
    | nil => simp at ne
    | cons c r => simp [splitWhere, outer, found]

/-- A text is not split exactly if it misses the property. -/
theorem splitWhere_eq_none_iff :
  splitWhere p n prev t = none ↔ Misses p n prev t []
  := by
  induction t generalizing n prev with
  | nil => simp [splitWhere]
  | cons c r ih =>
    rw [splitWhere, misses_cons, List.append_nil]
    split
    · next found =>
      rw [Bool.and_eq_true] at found
      simp [found]
    · next other => simp [ih, ← Bool.and_eq_true, other]

/-! ### Characters at the outer level -/

namespace Nesting

/-- The character `x` does not stand at the outer level in a text that is read from the
nesting `n`. -/
def Lacks (x : Char) : Nesting → Text → Prop
  | _, [] => True
  | n, c :: t => ¬(n.isOuter ∧ c = x) ∧ (n.next c).Lacks x t

instance decidableLacks (x : Char) : (n : Nesting) → (t : Text) → Decidable (n.Lacks x t)
  | _, [] => inferInstanceAs (Decidable True)
  | n, c :: t =>
    have := decidableLacks x (n.next c) t
    inferInstanceAs (Decidable (_ ∧ _))

@[simp]
theorem lacks_nil :
  n.Lacks x []
  := trivial

@[simp]
theorem lacks_cons :
  n.Lacks x (c :: t) ↔ ¬(n.isOuter ∧ c = x) ∧ (n.next c).Lacks x t
  := Iff.rfl

@[simp]
theorem lacks_append :
  n.Lacks x (s ++ t) ↔ n.Lacks x s ∧ (n.after s).Lacks x t
  := by
  induction s generalizing n with
  | nil => simp
  | cons c s ih => simp [ih, and_assoc]

/-- A text that does not hold a character does not hold it at the outer level. -/
theorem lacks_of_not_mem (h : x ∉ t) :
  n.Lacks x t
  := by
  induction t generalizing n with
  | nil => trivial
  | cons c t ih =>
    rw [List.mem_cons, not_or] at h
    constructor
    · rintro ⟨-, rfl⟩
      apply h.1 rfl
    · apply ih h.2

end Nesting

/-- A text that lacks a character misses each property of the places where it stands. -/
theorem misses_of_lacks (hp : ∀ prev t, p prev t → t.head? = some x) (h : n.Lacks x s) :
  Misses p n prev s r
  := by
  induction s generalizing n prev with
  | nil => trivial
  | cons c s ih =>
    obtain ⟨here, there⟩ := h
    constructor
    · rintro ⟨outer, found⟩
      apply here
      simpa [outer] using hp _ _ found
    · apply ih there

/-- A text that misses the places of a character lacks it. -/
theorem lacks_of_misses (h : Misses (fun _ t => t.head? == some x) n prev s r) :
  n.Lacks x s
  := by
  induction s generalizing n prev with
  | nil => trivial
  | cons c s ih =>
    obtain ⟨here, there⟩ := h
    constructor
    · simpa using here
    · apply ih there

end Testbench.Vhdl
