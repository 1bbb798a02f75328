import Testbench.Text.Basic

/-!
# Letter case

Case is ASCII case: `lower` and `upper` change the letters `A` to `Z` and `a` to `z` and
no others.  Two texts with the same lower case form are equal up to case, `sameWord`.
-/

namespace Testbench

namespace Text

/-- The text with its ASCII letters in lower case. -/
def lower (t : Text) : Text := t.map Char.toLower

/-- The text with its ASCII letters in upper case. -/
def upper (t : Text) : Text := t.map Char.toUpper

/-- Two texts are the same word when they are equal up to ASCII case. -/
def sameWord (s t : Text) : Bool := lower s == lower t

theorem sameWord_iff {s t : Text} :
  sameWord s t ↔ lower s = lower t
  := beq_iff_eq

@[simp]
theorem sameWord_self (t : Text) :
  sameWord t t
  := sameWord_iff.2 rfl

@[simp]
theorem length_lower (t : Text) :
  (lower t).length = t.length
  := List.length_map Char.toLower

@[simp]
theorem lower_append (s t : Text) :
  lower (s ++ t) = lower s ++ lower t
  := List.map_append

/-- Texts that are the same word have the same length. -/
theorem length_eq_of_sameWord {s t : Text} (h : sameWord s t) :
  s.length = t.length
  := by
  rw [← length_lower s, sameWord_iff.1 h, length_lower]

end Text

end Testbench
