import Testbench.Proofs.Vhdl.PortDeclaration
import Testbench.Proofs.Vhdl.Range
import Testbench.Proofs.Vhdl.Verbatim

/-!
# Members of interface lists that are read again

A generic or a port whose texts are kept from source is written as a member of an interface
list.  Such a member reads as a declaration of this generic or port, however many blanks
stand before its colon.
-/

namespace Testbench

open Vhdl Nesting

variable {gap : Text}

/-! ### Ranges -/

namespace Vhdl.Range

variable {r : Range} {b : Bound} {t : Text}

/-- The texts of the bounds of a range that is read are balanced and solid. -/
theorem solid_bound (tidy : Tidy t) (balanced : Balanced t) (h : ofText t = .ok r)
    (hb : b = r.left ∨ b = r.right) :
  Balanced b.text ∧ Solid b.text
  := by
  obtain ⟨⟨l, rfl, ne⟩, balancedBound, part⟩ := bound_of_ofText h hb
  use balancedBound balanced
  rcases part with part | digits
  · use tidy.of_isInfix part, Bound.text_ofText_ne_nil ne, Bound.trim_text_ofText l
  · apply IsWord.solid
    use Bound.text_ofText_ne_nil ne
    intro c hc
    simp [isWordChar, isDigit, digits c hc]

/-- The text of a range that is read is balanced and solid. -/
theorem solid_text (tidy : Tidy t) (balanced : Balanced t) (h : ofText t = .ok r) :
  Balanced r.text ∧ Solid r.text
  := by
  obtain ⟨balancedLeft, left⟩ := solid_bound tidy balanced h (Or.inl rfl)
  obtain ⟨balancedRight, right⟩ := solid_bound tidy balanced h (Or.inr rfl)
  have word := r.direction.isWord_name
  have space : Balanced [' '] := Balanced.of_isPlain (by decide)
  rw [text_eq]
  constructor
  · apply balancedLeft.append (space.append (word.balanced.append (space.append balancedRight)))
  · apply left.spaced (word.solid.spaced right)

end Vhdl.Range

/-! ### Lines -/

namespace Layout.Item

variable {i : Item} {style : Style} {column : Nat}

/-- What a member of an interface list says behind its colon. -/
def indication (i : Item) : Text := i.modePart ++ (i.type ++ i.assignment)

/-- A member of an interface list with the text `gap` before its colon. -/
def line (i : Item) (gap : Text) : Text := i.name ++ (gap ++ (": " ++ i.indication))

theorem interfaceLine_eq :
  i.interfaceLine style column = i.line (style.types.padding column i.name)
  := by
  simp [interfaceLine, line, indication]

end Layout.Item

open Layout

/-- A generic that is read can be read again. -/
theorem Vhdl.Generic.ofDeclaration?_line {g : Generic} (hg : g.IsRead)
    (hgap : ∀ c ∈ gap, isBlank c) (other : ¬g.name.text.sameWord "constant") :
  Generic.ofDeclaration? ((Item.ofGeneric g).line gap) = .ok [g]
  := by
  have name := Declaration.isName_append (i := g.name) hgap
  have shape : (Item.ofGeneric g).line gap =
      (g.name.text ++ gap) ++ ':' :: ' ' :: (g.type ++ (Item.ofGeneric g).assignment) := by
    simp [Item.line, Item.indication, Item.ofGeneric, Item.modePart]
  have parts : Declaration.splitDefault (' ' :: (g.type ++ (Item.ofGeneric g).assignment)) =
      .ok (g.type, g.default) := by
    apply Declaration.splitDefault_eq hg.type.trim hg.type.balanced.after hg.noAssignment
    intro v hv
    use (hg.default v hv).trim, (hg.default v hv).ne_nil
  have typed : splitType (' ' :: (g.type ++ (Item.ofGeneric g).assignment)) =
      .ok (g.type, g.default) := by
    rw [splitType, parts]
    apply if_neg hg.type.ne_nil
  rw [ofDeclaration?, mapError_eq_ok, ofDeclaration, shape]
  apply bind_eq_ok.2 ⟨_, name.splitNames (by simp), ?_⟩
  apply bind_eq_ok.2 ⟨_, typed, ?_⟩
  apply bind_eq_ok.2 ⟨_, Declaration.names_eq isWord_constant hgap other, ?_⟩
  rfl

namespace Vhdl.Port

variable {p : Port}

/-- The type of a port that is read is a subtype of the grammar. -/
theorem isSubtype_subtype (hp : p.IsRead) :
  IsSubtype (p.mode.name ++ [' '] ++ p.subtype) ⟨p.mode, p.type, p.range⟩
  := by
  have mode : IsModePart (p.mode.name ++ [' ']) p.mode :=
    IsModePart.written (Text.sameWord_self _) ⟨by simp, by decide⟩
  have shape : ∃ range, p.subtype = p.type.name ++ range ∧ IsRangePart range p.range := by
    rw [subtype]
    cases range : p.range with
    | none => use [], by simp, IsRangePart.absent
    | some r =>
      obtain ⟨t, tidy, balanced, read⟩ := hp.range r range
      have part : IsRangePart ([] ++ ('(' :: r.text ++ [')'])) (some r) :=
        IsRangePart.written (by simp) (Range.solid_text tidy balanced read).1
          (Range.ofText_text read)
      use [] ++ ('(' :: r.text ++ [')']), by simp, part
  obtain ⟨range, eq, part⟩ := shape
  rw [eq]
  exact @IsSubtype.intro _ _ _ ⟨p.mode, p.type, p.range⟩ mode (Text.sameWord_self _) part

/-- The type of a port that is read can be kept. -/
theorem verbatim_subtype (hp : p.IsRead) :
  Verbatim p.subtype
  := by
  have word := p.type.isWord_name
  rw [subtype]
  cases range : p.range with
  | none => apply word.verbatim
  | some r =>
    obtain ⟨t, tidy, balanced, read⟩ := hp.range r range
    obtain ⟨balancedText, solid⟩ := Range.solid_text tidy balanced read
    have shape : p.type.name ++ "(" ++ r.text ++ ")" = p.type.name ++ ('(' :: r.text ++ [')']) := by
      simp
    simp only
    rw [shape]
    apply Solid.verbatim _ (word.balanced.append balancedText.parenthesized)
    · rw [lacks_append, word.balanced.after]
      use lacks_of_not_mem (word.not_mem (by decide))
      apply balancedText.lacks_parenthesis (by decide)
    · apply word.solid.append
      · apply Solid.append (s := ['(']) (by decide)
        · apply solid.append (by decide)
          intro a ha b hb
          obtain rfl : ')' = b := by simpa using hb
          simp [Joins, isSeparator]
        · intro a ha b hb
          obtain rfl : '(' = a := by simpa using ha
          simp [Joins, isSeparator]
      · intro a ha b hb
        apply (joins_of_isWordChar (word.forall_mem a (List.mem_of_getLast? ha))).2

/-- A port that is read can be read again. -/
theorem ofDeclaration_line (hp : p.IsRead) (hgap : ∀ c ∈ gap, isBlank c)
    (other : ¬p.name.text.sameWord "signal") :
  Port.ofDeclaration ((Item.ofPort p).line gap) = .ok [p]
  := by
  obtain ⟨b, part, eq, hb, value⟩ :=
    Declaration.exists_isDefaultPart (Item.ofPort p) fun v hv =>
      ⟨(hp.default v hv).trim, (hp.default v hv).ne_nil⟩
  have names : Declaration.IsNamePart "signal" (p.name.text ++ gap) [p.name] :=
    .bare other (.one (Declaration.isName_append hgap))
  have behind : IsRest ([' '] ++ (p.mode.name ++ [' '] ++ p.subtype) ++ b ++ part)
      ⟨p.mode, p.type, p.range⟩ p.default :=
    .intro (by decide) hb (isSubtype_subtype hp) value
  have shape : (Item.ofPort p).line gap = (p.name.text ++ gap) ++
      ':' :: ([' '] ++ (p.mode.name ++ [' '] ++ p.subtype) ++ b ++ part) := by
    rw [Item.line, Item.indication, eq]
    simp [Item.ofPort, Item.modePart]
  rw [shape, ofDeclaration_eq_ok_iff]
  refine ⟨_, _, _, IsDeclaration.intro names behind p.range_isSome, ?_⟩
  apply List.Forall₂.cons ⟨rfl, rfl, rfl, rfl, rfl⟩ List.Forall₂.nil

end Vhdl.Port

/-! ### Members of lists -/

namespace Layout.Item

variable {i : Item}

/-- An item is kept when its name is a word and what it says behind the colon can be kept. -/
structure IsKept (i : Item) : Prop where
  name : IsWord i.name
  indication : Verbatim i.indication

/-- What is kept before a value is kept with it. -/
theorem verbatim_append_assignment {s : Text} (hs : Verbatim s) (hv : ∀ v ∈ i.value, Verbatim v) :
  Verbatim (s ++ i.assignment)
  := by
  rw [assignment]
  cases value : i.value with
  | none =>
    simp only
    rw [List.append_nil]
    apply hs
  | some v => apply hs.spaced (verbatim_assignment.spaced (hv v value))

theorem isKept_ofGeneric {g : Generic} (hg : g.IsRead) :
  (ofGeneric g).IsKept
  := by
  use g.name.isWord
  apply verbatim_append_assignment hg.type hg.default

theorem isKept_ofPort {p : Port} (hp : p.IsRead) :
  (ofPort p).IsKept
  := by
  use p.name.isWord
  have shape :
      (ofPort p).indication = p.mode.name ++ ' ' :: p.subtype ++ (ofPort p).assignment := by
    simp [indication, ofPort, modePart]
  rw [shape]
  apply verbatim_append_assignment _ hp.default
  apply p.mode.isWord_name.verbatim.spaced (Port.verbatim_subtype hp)

/-- An item that is kept is a member of a list of declarations. -/
theorem IsKept.isMember (hi : i.IsKept) (hgap : ∀ c ∈ gap, isBlank c) :
  Declaration.IsMember (i.line gap)
  := by
  have name := hi.name
  have colon : Balanced [':', ' '] := Balanced.of_isPlain (by decide)
  have shape : i.line gap = i.name ++ (gap ++ [':', ' '] ++ i.indication) := by
    simp [line]
  refine ⟨⟨?_, ?_⟩, ?_, ?_⟩
  · apply name.balanced.append
    apply (Balanced.of_isPlain _).append (colon.append hi.indication.balanced)
    intro c hc
    apply isPlain_of_isBlank (hgap c hc)
  · have semicolon : ';' ∉ gap := fun mem => absurd (hgap ';' mem) (by decide)
    rw [line, lacks_append, lacks_append, name.balanced.after, after_of_isBlank hgap]
    use lacks_of_not_mem (name.not_mem (by decide)), lacks_of_not_mem semicolon, by decide,
      by decide
    apply hi.indication.lacks
  · simp [line]
  · rw [shape]
    apply Text.trim_append_append name.trim name.ne_nil hi.indication.trim hi.indication.ne_nil

end Layout.Item

end Testbench
