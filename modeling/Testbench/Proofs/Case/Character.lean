import Testbench.Text.Blank
import Testbench.Text.Case
import Testbench.Vhdl.Character
import Mathlib.Tactic.Common

/-!
# Characters in either case

Whether a character is blank, a separator, a letter, a digit or a word character does not
depend on its case, and a character that is no letter has one case only.
-/

namespace Testbench

open Vhdl

variable {c x : Char}

/-- What holds alike of each capital letter and its small letter does not depend on case. -/
theorem apply_toLower {α : Type} (f : Char → α)
    (h : ∀ i : Fin 26, f (Char.ofNat (97 + i)) = f (Char.ofNat (65 + i))) (c : Char) :
  f c.toLower = f c
  := by
  have small : ∀ i : Fin 26, (Char.ofNat (65 + i)).toLower = Char.ofNat (97 + i) := by decide
  by_cases upper : 'A'.val ≤ c.val ∧ c.val ≤ 'Z'.val
  · have bounds : 65 ≤ c.toNat ∧ c.toNat ≤ 90 := upper
    have same : c = Char.ofNat (65 + (c.toNat - 65)) := by
      rw [Nat.add_sub_cancel' bounds.1, Char.ofNat_toNat]
    rw [same, small ⟨c.toNat - 65, by omega⟩]
    apply h
  · have same : c.toLower = c := dif_neg upper
    rw [same]

@[simp]
theorem isBlank_toLower (c : Char) :
  isBlank c.toLower = isBlank c
  := by
  apply apply_toLower
  decide

@[simp]
theorem isSeparator_toLower (c : Char) :
  isSeparator c.toLower = isSeparator c
  := by
  apply apply_toLower
  decide

@[simp]
theorem isLetter_toLower (c : Char) :
  isLetter c.toLower = isLetter c
  := by
  apply apply_toLower
  decide

/-- Only letters have another case. -/
theorem toLower_of_not_isLetter (h : ¬isLetter c) :
  c.toLower = c
  := by
  apply dif_neg
  intro upper
  have capital : c.isUpper := decide_eq_true upper
  apply h
  apply Bool.or_eq_true_iff.2 (Or.inl capital)

@[simp]
theorem isWordChar_toLower (c : Char) :
  isWordChar c.toLower = isWordChar c
  := by
  apply apply_toLower
  decide

@[simp]
theorem isDigit_toLower (c : Char) :
  c.toLower.isDigit = c.isDigit
  := by
  apply apply_toLower
  decide

/-- A mark is a character that is no letter. -/
def IsMark (x : Char) : Prop := ∀ i : Fin 26, x ≠ Char.ofNat (97 + i) ∧ x ≠ Char.ofNat (65 + i)

instance : DecidablePred IsMark := fun _ => inferInstanceAs (Decidable (∀ _, _))

/-- A mark is told from all other characters in either case. -/
theorem toLower_eq_iff (hx : IsMark x) :
  c.toLower = x ↔ c = x
  := by
  have := apply_toLower (fun c => decide (c = x)) (by
    intro i
    simp [(hx i).1.symm, (hx i).2.symm]) c
  simpa using this

theorem toLower_beq (hx : IsMark x) (c : Char) :
  (c.toLower == x) = (c == x)
  := by
  rw [Bool.eq_iff_iff, beq_iff_eq, beq_iff_eq]
  apply toLower_eq_iff hx

theorem map_toLower_beq (hx : IsMark x) (o : Option Char) :
  (o.map Char.toLower == some x) = (o == some x)
  := by
  cases o with
  | none => rfl
  | some c => apply toLower_beq hx

end Testbench
