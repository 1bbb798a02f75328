import Testbench.Proofs.Layout.Component
import Testbench.Proofs.Record.Entity

/-!
# Records of entities that no source declares

A record may hold texts that a declaration cannot: the reader of records checks names, modes,
data types and that there are bounds, but it takes the types of generics, the defaults and
the bounds as they come.  An entity from a record is found again in the source made of its
component exactly if its texts are those that a declaration could hold, `Entity.FitsSource`.
-/

namespace Testbench

open Vhdl Record Layout

variable {e : Entity} {r : Range} {t : Text}

/-- A range fits in source when its bounds are tidy and balanced and none of their words is
taken for the keyword of the direction. -/
structure Vhdl.Range.FitsSource (r : Range) : Prop where
  left : Tidy r.left.text ∧ Balanced r.left.text
  right : Tidy r.right.text ∧ Balanced r.right.text
  lacks : LacksWord r.direction.name r.left.text
  lacks_down : r.direction = .up →
    LacksWord Direction.down.name r.left.text ∧ LacksWord Direction.down.name r.right.text

/-- An entity fits in source when types, defaults and ranges could be written there. -/
structure Vhdl.Entity.FitsSource (e : Entity) : Prop where
  types : ∀ g ∈ e.generics, Verbatim g.type ∧ splitAssignment? g.type = none
  genericDefaults : ∀ g ∈ e.generics, ∀ d ∈ g.default, Verbatim d
  ranges : ∀ p ∈ e.ports, ∀ r ∈ p.range, r.FitsSource
  portDefaults : ∀ p ∈ e.ports, ∀ d ∈ p.default, Verbatim d

namespace Vhdl

/-- A bound that is read is a bound of a text that is not blank. -/
theorem Bound.IsRead.exists_ofText {b : Bound} (hb : b.IsRead) :
  ∃ l : Text, b = .ofText l ∧ l.trim ≠ []
  := by
  obtain ⟨l, ne, rfl⟩ := hb
  use l

/-- The text of a bound that is read and tidy is solid. -/
theorem Bound.IsRead.solid {b : Bound} (hb : b.IsRead) (tidy : Tidy b.text) :
  Solid b.text
  := by
  obtain ⟨l, ne, rfl⟩ := hb
  use tidy, Bound.text_ofText_ne_nil ne, Bound.trim_text_ofText l

/-- A range whose bounds are read is written by a tidy and balanced text exactly if it fits in
source. -/
theorem Range.fitsSource_iff (hl : r.left.IsRead) (hr : r.right.IsRead) :
  r.FitsSource ↔ ∃ t, Tidy t ∧ Balanced t ∧ Range.ofText t = .ok r
  := by
  constructor
  · rintro ⟨⟨tidyLeft, balancedLeft⟩, ⟨tidyRight, balancedRight⟩, lacks, lacks_down⟩
    have word := r.direction.isWord_name
    have space : Balanced [' '] := by decide
    have read := ofText_text_of_isDirected ⟨balancedLeft.after, lacks, lacks_down⟩
      hl.exists_ofText hr.exists_ofText
    use r.text
    refine ⟨?_, ?_, read⟩
    · rw [text_eq]
      apply ((hl.solid tidyLeft).spaced (word.solid.spaced (hr.solid tidyRight))).tidy
    · rw [text_eq]
      apply balancedLeft.append (space.append (word.balanced.append (space.append balancedRight)))
  · rintro ⟨t, tidy, balanced, read⟩
    obtain ⟨balancedLeft, left⟩ := solid_bound tidy balanced read (Or.inl rfl)
    obtain ⟨balancedRight, right⟩ := solid_bound tidy balanced read (Or.inr rfl)
    obtain ⟨-, lacks, lacks_down⟩ := isDirected_of_ofText read
    exact ⟨⟨left.tidy, balancedLeft⟩, ⟨right.tidy, balancedRight⟩, lacks, lacks_down⟩

/-- An entity whose bounds are read fits in source exactly if its texts are kept from there. -/
theorem Entity.HasReadBounds.fitsSource_iff (he : e.HasReadBounds) :
  e.FitsSource ↔ e.IsRead
  := by
  constructor
  · rintro ⟨types, genericDefaults, ranges, portDefaults⟩
    constructor
    · intro g hg
      use (types g hg).1, (types g hg).2, genericDefaults g hg
    · intro p hp
      use fun r hr => (Range.fitsSource_iff (he p hp r hr).1 (he p hp r hr).2).1 (ranges p hp r hr)
      apply portDefaults p hp
  · rintro ⟨generics, ports⟩
    constructor
    case types =>
      intro g hg
      use (generics g hg).type, (generics g hg).noAssignment
    case genericDefaults =>
      intro g hg
      apply (generics g hg).default
    case ranges =>
      intro p hp r hr
      apply (Range.fitsSource_iff (he p hp r hr).1 (he p hp r hr).2).2
      apply (ports p hp).range r hr
    case portDefaults =>
      intro p hp
      apply (ports p hp).default

end Vhdl

namespace Record

/-- An entity from a record is found again in its component, with the header and the closing
part of an entity, exactly if it fits in source, unless a name is taken for the class of the
objects. -/
theorem ofSource_component_iff_fitsSource (h : readEntity t = .ok e)
    (hp : ∀ p ∈ e.ports, ¬p.name.text.sameWord "signal")
    (hg : ∀ g ∈ e.generics, ¬g.name.text.sameWord "constant") (style : Style) :
  Entity.ofSource ((component e style 0).withEnds ("entity " ++ e.name.text ++ " is")
    "end entity;") = .ok e ↔ e.FitsSource
  := by
  rw [(hasReadBounds_of_readEntity_eq_ok h).fitsSource_iff]
  constructor
  · apply Entity.isRead_of_ofSource_eq_ok
  · intro he
    apply ofSource_of_isRead he hp hg style 0

/-- The component of the shifter, which is read from its record, declares the shifter. -/
theorem ofSource_component_record_shifter :
  readEntity (ofEntity shifter).text = .ok shifter ∧ shifter.FitsSource ∧
    Entity.ofSource ((component shifter .standard 0).withEnds
      ("entity " ++ shifter.name.text ++ " is") "end entity;") = .ok shifter
  := by
  have kept : shifter.IsRead := Entity.isRead_of_ofSource_eq_ok ofSource_shifter
  have read := readEntity_text kept.hasReadBounds
  have fits : shifter.FitsSource := kept.hasReadBounds.fitsSource_iff.2 kept
  have found := ofSource_component_iff_fitsSource read (by decide) (by decide) .standard
  exact ⟨read, fits, found.2 fits⟩

/-- An entity with a generic without a type. -/
def untyped : Entity where
  name := ⟨"untyped", by decide⟩
  generics := [⟨⟨"depth", by decide⟩, [], none⟩]
  ports := []
  generics_distinct := List.pairwise_singleton _ _
  ports_distinct := List.Pairwise.nil

theorem readEntity_untyped :
  readEntity (ofEntity untyped).text = .ok untyped
  := by
  apply readEntity_text
  intro p hp
  contradiction

/-- A record describes the entity with a generic without a type, but its component declares
no entity. -/
theorem not_ofSource_component_of_readEntity :
  ¬∀ (t : Text) (e : Entity), readEntity t = .ok e →
    (∀ p ∈ e.ports, ¬p.name.text.sameWord "signal") →
    (∀ g ∈ e.generics, ¬g.name.text.sameWord "constant") → ∀ style,
    Entity.ofSource ((component e style 0).withEnds ("entity " ++ e.name.text ++ " is")
      "end entity;") = .ok e
  := by
  intro found
  have refused : Entity.ofSource ((component untyped .standard 0).withEnds
      ("entity " ++ untyped.name.text ++ " is") "end entity;") =
      .error (.malformedGeneric "depth :" .missingType) := by decide +kernel
  have := found _ untyped readEntity_untyped (by decide) (by decide) .standard
  rw [refused] at this
  contradiction

end Record

end Testbench
