import Testbench.Proofs.Record.Entity
import Testbench.Proofs.Vhdl.Identifier

/-!
# Sound entities

Whether an entity is read from source or from a record, its names are basic identifiers and
different up to case, its vectors and only they have ranges, and the bounds of these are in
one form: a number below `2 ^ 64` is never kept as an expression.  This is what
`Entity.IsSound` says.  Source leaves clean texts behind as well, `Entity.IsClean`; a record
may hold any texts.
-/

namespace Testbench.Vhdl

variable {t : Text} {e : Entity} {b : Bound}

/-- A text in digits alone with a value below `2 ^ 64`. -/
def IsSmallNumber (t : Text) : Prop :=
  (∀ c ∈ t, c.isDigit) ∧ Nat.ofDigitChars 10 t 0 < Nat.pow 2 64

/-- A bound is a number below `2 ^ 64`, or a trimmed text that is neither empty nor such a
number. -/
def Bound.IsNormal : Bound → Prop
  | .int n => n < Nat.pow 2 64
  | .expr t => t ≠ [] ∧ t.trim = t ∧ ¬IsSmallNumber t

/-- What holds of each entity that is read, from source or from a record. -/
structure Entity.IsSound (e : Entity) : Prop where
  name : IsBasic e.name.text
  genericNames : ∀ g ∈ e.generics, IsBasic g.name.text
  portNames : ∀ p ∈ e.ports, IsBasic p.name.text
  genericsApart : e.generics.Pairwise fun g h => ¬g.name.text.sameWord h.name.text
  portsApart : e.ports.Pairwise fun p q => ¬p.name.text.sameWord q.name.text
  ranges : ∀ p ∈ e.ports, p.range.isSome ↔ p.type.kind = .vector
  bounds : ∀ p ∈ e.ports, ∀ r ∈ p.range, r.left.IsNormal ∧ r.right.IsNormal

/-- A text is clean when it is not empty, trimmed and balanced and no comment begins in it. -/
structure Clean (t : Text) : Prop where
  ne_nil : t ≠ []
  trim : t.trim = t
  noLineComment : ¬['-', '-'] <:+: t
  noBlockComment : ¬['/', '*'] <:+: t
  balanced : Balanced t

/-- The types of the generics and all defaults are clean texts. -/
structure Entity.IsClean (e : Entity) : Prop where
  types : ∀ g ∈ e.generics, Clean g.type
  genericDefaults : ∀ g ∈ e.generics, ∀ d ∈ g.default, Clean d
  portDefaults : ∀ p ∈ e.ports, ∀ d ∈ p.default, Clean d

/-- A bound that is read is in its normal form. -/
theorem Bound.IsRead.isNormal (hb : b.IsRead) :
  b.IsNormal
  := by
  obtain ⟨t, ne, rfl⟩ := hb
  rw [ofText]
  split
  · next n read => apply (of_decimal?_eq_some read).1
  · next absent =>
    use ne, t.trim_trim
    rintro ⟨digits, small⟩
    have all : t.trim ≠ [] ∧ t.trim.all Char.isDigit := by
      use ne
      rw [List.all_eq_true]
      apply digits
    have bound : Nat.ofDigitChars 10 t.trim 0 < limit := small
    simp [Text.decimal?, all, bound] at absent

/-- An entity whose bounds are read is sound: it carries the rest with it. -/
theorem Entity.HasReadBounds.isSound (he : e.HasReadBounds) :
  e.IsSound
  := by
  constructor
  case name => apply e.name.isBasic
  case genericNames =>
    intro g _
    apply g.name.isBasic
  case portNames =>
    intro p _
    apply p.name.isBasic
  case genericsApart => apply Identifier.nodup_key_iff.1 e.generics_distinct
  case portsApart => apply Identifier.nodup_key_iff.1 e.ports_distinct
  case ranges =>
    intro p _
    rw [p.range_isSome, DataType.isVector, beq_iff_eq]
  case bounds =>
    intro p hp r hr
    obtain ⟨left, right⟩ := he p hp r hr
    use left.isNormal, right.isNormal

/-- A text that is kept is clean. -/
theorem Verbatim.clean (h : Verbatim t) :
  Clean t
  := by
  use h.ne_nil, h.trim
  · apply h.tidy.not_isInfix (by decide)
  · apply h.tidy.not_isInfix (by decide)
  · apply h.balanced

/-- An entity that is kept as its source writes it has clean texts. -/
theorem Entity.IsRead.isClean (he : e.IsRead) :
  e.IsClean
  := by
  constructor
  · intro g hg
    apply (he.generics g hg).type.clean
  · intro g hg d hd
    apply ((he.generics g hg).default d hd).clean
  · intro p hp d hd
    apply ((he.ports p hp).default d hd).clean

/-- An entity from source or from a record is sound, and one from source has clean texts. -/
theorem Entity.isSound_of_read (h : ofSource t = .ok e ∨ Record.readEntity t = .ok e) :
  e.IsSound ∧ (ofSource t = .ok e → e.IsClean)
  := by
  constructor
  · rcases h with h | h
    · apply (isRead_of_ofSource_eq_ok h).hasReadBounds.isSound
    · apply (Record.hasReadBounds_of_readEntity_eq_ok h).isSound
  · intro h
    apply (isRead_of_ofSource_eq_ok h).isClean

/-- The shifter is sound and its texts are clean. -/
theorem Entity.isSound_shifter :
  ofSource shifterSource = .ok shifter ∧ shifter.IsSound ∧ shifter.IsClean
  := by
  obtain ⟨sound, clean⟩ := isSound_of_read (Or.inl ofSource_shifter)
  exact ⟨ofSource_shifter, sound, clean ofSource_shifter⟩

end Testbench.Vhdl
