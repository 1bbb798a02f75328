import Testbench.Vhdl.Identifier
import Mathlib.Tactic.Common

/-!
# The grammar of identifiers

A basic identifier is a letter, followed by letters and digits each of which may stand
behind one underline.  `Identifier.fault?` recognises this grammar: the texts in which it
finds no fault are the basic identifiers.
-/

namespace Testbench.Vhdl

variable {c : Char} {r t : Text} {underline : Bool}

/-- A letter or a digit. -/
def IsLetterOrDigit (c : Char) : Prop := isLetter c ∨ isDigit c

/-- The texts that may follow the letter at the start of an identifier. -/
inductive IsBasicTail : Text → Prop
  | nil : IsBasicTail []
  | next {c : Char} {r : Text} : IsLetterOrDigit c → IsBasicTail r → IsBasicTail (c :: r)
  | underlined {c : Char} {r : Text} :
      IsLetterOrDigit c → IsBasicTail r → IsBasicTail ('_' :: c :: r)

/-- The basic identifiers. -/
inductive IsBasic : Text → Prop
  | intro {c : Char} {r : Text} : isLetter c → IsBasicTail r → IsBasic (c :: r)

/-- An underline is neither a letter nor a digit. -/
theorem not_isLetterOrDigit_underline :
  ¬IsLetterOrDigit '_'
  := by
  rintro (h | h)
  · exact absurd h (by decide)
  · exact absurd h (by decide)

/-- The characters of words are letters, digits and underlines. -/
theorem isWordChar_iff :
  isWordChar c ↔ IsLetterOrDigit c ∨ c = '_'
  := by
  simp [isWordChar, IsLetterOrDigit]

/-- Another character than an underline stands by itself. -/
theorem isBasicTail_cons (hc : c ≠ '_') :
  IsBasicTail (c :: r) ↔ IsLetterOrDigit c ∧ IsBasicTail r
  := by
  constructor
  · intro h
    cases h with
    | next kind tail => use kind
    | underlined => contradiction
  · rintro ⟨kind, tail⟩
    apply IsBasicTail.next kind tail

/-- A letter or a digit follows an underline. -/
theorem isBasicTail_underline :
  IsBasicTail ('_' :: t) ↔ ∃ c r, t = c :: r ∧ IsLetterOrDigit c ∧ IsBasicTail r
  := by
  constructor
  · intro h
    cases h with
    | next kind => apply absurd kind not_isLetterOrDigit_underline
    | @underlined c r kind tail => use c, r
  · rintro ⟨c, r, rfl, kind, tail⟩
    apply IsBasicTail.underlined kind tail

namespace Identifier

/-- Behind the first letter no fault is found exactly if the rest follows the grammar, where
an underline that was read belongs to the rest. -/
theorem tailFault?_eq_none_iff :
  tailFault? underline t = none ↔ IsBasicTail (if underline then '_' :: t else t)
  := by
  induction t generalizing underline with
  | nil =>
    cases underline with
    | false => simpa [tailFault?] using IsBasicTail.nil
    | true => simp [tailFault?, isBasicTail_underline]
  | cons c r ih =>
    rw [tailFault?]
    by_cases mark : c = '_'
    · subst mark
      cases underline with
      | false => simpa [isWordChar] using @ih true
      | true => simp [isWordChar, isBasicTail_underline, not_isLetterOrDigit_underline]
    · have rest := @ih (c == '_')
      rw [beq_false_of_ne mark] at rest ⊢
      by_cases word : isWordChar c
      · have kind : IsLetterOrDigit c := (isWordChar_iff.1 word).resolve_right mark
        cases underline with
        | false => simpa [word, mark, isBasicTail_cons mark, kind] using rest
        | true => simpa [word, mark, isBasicTail_underline, kind] using rest
      · have kind : ¬IsLetterOrDigit c := fun kind => word (isWordChar_iff.2 (Or.inl kind))
        cases underline with
        | false => simp [word, isBasicTail_cons mark, kind]
        | true => simp [word, isBasicTail_underline, kind]

/-- The texts without a fault are the basic identifiers. -/
theorem fault?_eq_none_iff :
  fault? t = none ↔ IsBasic t
  := by
  constructor
  · intro h
    cases t with
    | nil => simp [fault?] at h
    | cons c r =>
      rw [fault?] at h
      split at h
      · next letter => apply IsBasic.intro letter (tailFault?_eq_none_iff.1 h)
      · simp at h
  · rintro ⟨letter, tail⟩
    rw [fault?, if_pos letter]
    apply (@tailFault?_eq_none_iff _ false).2 tail

/-- Identifiers follow the grammar. -/
theorem isBasic (i : Identifier) :
  IsBasic i.text
  := fault?_eq_none_iff.1 i.valid

end Identifier

end Testbench.Vhdl
