import Testbench.Proofs.Case.Nesting
import Testbench.Proofs.Stage
import Testbench.Vhdl.Declaration
import Testbench.Vhdl.Range

/-!
# Declarations in either case

Identifiers and ranges have a lower case form, in which their texts are put into lower case
and everything else is kept.  They are read from a text in lower case in this form, and
declarations in lower case are taken apart into their parts in lower case.
-/

namespace Testbench.Vhdl

open Text

/-! ### Identifiers -/

namespace Identifier

/-- A text in lower case is as good an identifier as the text, and has the same fault. -/
theorem tailFault?_lower (underline : Bool) (t : Text) :
  tailFault? underline (Text.lower t) = tailFault? underline t
  := by
  have mark : IsMark '_' := by decide
  induction t generalizing underline with
  | nil => rfl
  | cons c t ih =>
    rw [lower_cons, tailFault?, tailFault?, isWordChar_toLower, toLower_beq mark, ih]
    split
    · next other =>
      rw [toLower_of_not_isLetter]
      intro letter
      simp [isWordChar, letter] at other
    · rfl

@[simp]
theorem fault?_lower (t : Text) :
  fault? (Text.lower t) = fault? t
  := by
  cases t with
  | nil => rfl
  | cons c t =>
    rw [lower_cons, fault?, fault?, isLetter_toLower, tailFault?_lower]
    split
    · rfl
    · next other => rw [toLower_of_not_isLetter other]

/-- The identifier in lower case. -/
def lower (i : Identifier) : Identifier := ⟨i.text.lower, (fault?_lower _).trans i.valid⟩

@[simp]
theorem text_lower (i : Identifier) :
  i.lower.text = i.text.lower
  := rfl

@[simp]
theorem key_lower (i : Identifier) :
  i.lower.key = i.key
  := lower_lower i.text

theorem ofText_lower (t : Text) :
  ofText (Text.lower t) = (ofText t).map lower
  := by
  rw [ofText, ofText]
  split
  · next valid =>
    rw [fault?_lower] at valid
    split
    · rfl
    · next fault => rw [valid] at fault; contradiction
  · next fault =>
    rw [fault?_lower] at fault
    split
    · next valid => rw [valid] at fault; contradiction
    · next fault' =>
      rw [fault] at fault'
      rw [Option.some.inj fault']
      rfl

end Identifier

/-! ### Ranges -/

/-- The bound with its expression in lower case. -/
def Bound.lower : Bound → Bound
  | .int n => .int n
  | .expr t => .expr t.lower

theorem Bound.lower_lower (b : Bound) :
  b.lower.lower = b.lower
  := by
  cases b with
  | int n => rfl
  | expr t => exact congrArg expr (Text.lower_lower t)

theorem Bound.ofText_lower (t : Text) :
  ofText (Text.lower t) = (ofText t).lower
  := by
  rw [ofText, ofText, trim_lower, decimal?_lower]
  split <;> rfl

theorem Bound.int?_lower (b : Bound) :
  b.lower.int? = b.int?
  := by
  cases b <;> rfl

namespace Range

/-- The range with its bounds in lower case. -/
def lower (r : Range) : Range := ⟨r.left.lower, r.right.lower, r.direction⟩

theorem ofDirection?_lower (t : Text) (d : Direction) :
  ofDirection? (Text.lower t) d = (ofDirection? t d).map (·.map lower)
  := by
  rw [ofDirection?, ofDirection?, splitWord?_lower]
  cases splitWord? d.name t with
  | none => rfl
  | some parts =>
    simp only [Option.map_some, Option.bind_eq_bind, Option.bind_some, Prod.map, trim_lower,
      lower_eq_nil_iff, Bound.ofText_lower]
    split <;> rfl

theorem ofPair?_lower (t : Text) :
  ofPair? (Text.lower t) = (ofPair? t).map lower
  := by
  have comma : IsMark ',' := by decide
  have bounds : (split ',' (Text.lower t)).map Bound.ofText =
      ((split ',' t).map Bound.ofText).map Bound.lower := by
    rw [split_lower comma, List.map_map, List.map_map]
    apply List.map_congr_left
    intro q _
    apply Bound.ofText_lower
  rw [ofPair?, ofPair?, bounds]
  rcases (split ',' t).map Bound.ofText with - | ⟨- | -, - | ⟨- | -, - | -⟩⟩ <;> rfl

theorem ofText_lower (t : Text) :
  ofText (Text.lower t) = (ofText t).map lower
  := by
  simp only [ofText, trim_lower, lower_eq_nil_iff, ofDirection?_lower, ofPair?_lower]
  split
  · rfl
  · cases ofDirection? t.trim .down with
    | some r => rfl
    | none =>
      cases ofDirection? t.trim .up with
      | some r => rfl
      | none => cases ofPair? t.trim <;> rfl

end Range

/-! ### Clauses and declarations -/

namespace Declaration

theorem clause?_lower (keyword body : Text) :
  clause? keyword (lower body) = (clause? keyword body).map (·.map lower)
  := by
  have opening : IsMark '(' := by decide
  rw [clause?, clause?, splitWord?_lower]
  cases splitWord? keyword body with
  | none => rfl
  | some parts =>
    simp only [Option.map_some, Prod.map, trimStart_lower]
    obtain ⟨inside, eq, eq'⟩ | ⟨other, other'⟩ := lower_cases_mark opening parts.2.trimStart
    · rw [eq', eq]
      simp only [splitClosing?_lower]
      cases splitClosing? inside with
      | none => rfl
      | some parts => simp [Except.map]
    · split
      · next eq => cases other' _ eq
      · rfl

theorem list_lower (inside : Text) :
  list (lower inside) = (list inside).map lower
  := by
  have semicolon : IsMark ';' := by decide
  rw [list, list, split_lower semicolon, List.filter_map]
  congr 1
  apply List.filter_congr
  simp

theorem splitNames_lower (declaration : Text) :
  splitNames (lower declaration) = (splitNames declaration).map (Prod.map lower lower)
  := by
  rw [splitNames, splitNames, splitColon?_lower]
  cases splitColon? declaration <;> rfl

theorem splitDefault_lower (t : Text) :
  splitDefault (lower t) = (splitDefault t).map (Prod.map lower (Option.map lower))
  := by
  rw [splitDefault, splitDefault, splitAssignment?_lower]
  cases splitAssignment? t with
  | none => simp [Except.map]
  | some parts =>
    simp only [Option.map_some, Prod.map, trim_lower, lower_eq_nil_iff]
    split <;> rfl

/-- Names are read in lower case exactly if they are read. -/
theorem names_lower (objectClass t : Text) :
  Agree (fun _ _ => True) (fun a b => a = b.map Identifier.lower)
    (names objectClass (lower t)) (names objectClass t)
  := by
  have comma : IsMark ',' := by decide
  have bare : (stripWord? objectClass (lower t)).getD (lower t) =
      lower ((stripWord? objectClass t).getD t) := by
    rw [stripWord?_lower]
    cases stripWord? objectClass t <;> rfl
  rw [names, names, bare, split_lower comma]
  apply Agree.mapM_map
  intro q
  rw [name, name, Identifier.ofText_lower]
  cases Identifier.ofText q with
  | error f => apply Agree.error trivial
  | ok i => exact Agree.ok rfl

end Declaration

end Testbench.Vhdl
