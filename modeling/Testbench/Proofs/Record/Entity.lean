import Testbench.Proofs.Layout.Line
import Testbench.Proofs.Record.Json

/-!
# Entities that go through records

A record holds the texts of an entity, from which the entity is made again.  The bounds of
ranges need care: a bound is kept as a text, and this text reads as the bound only if the
bound was read from a text itself.  The bounds of every entity that comes from source or from
a record were.
-/

namespace Testbench

open Vhdl

/-! ### Bounds that are read -/

/-- A bound is read when it is the bound of a text with something to read. -/
def Vhdl.Bound.IsRead (b : Bound) : Prop := ∃ t : Text, t.trim ≠ [] ∧ b = .ofText t

/-- The bounds of all ranges of an entity are read. -/
def Vhdl.Entity.HasReadBounds (e : Entity) : Prop :=
  ∀ p ∈ e.ports, ∀ r ∈ p.range, r.left.IsRead ∧ r.right.IsRead

/-- The text of a bound that is read is not blank and reads as the bound. -/
theorem Vhdl.Bound.IsRead.ofText_text {b : Bound} (hb : b.IsRead) :
  b.text.trim ≠ [] ∧ Bound.ofText b.text = b
  := by
  obtain ⟨t, ne, rfl⟩ := hb
  rw [trim_text_ofText, ofText_text_ofText]
  use text_ofText_ne_nil ne

/-- The bounds of an entity from source are read. -/
theorem Vhdl.Entity.IsRead.hasReadBounds {e : Entity} (he : e.IsRead) :
  e.HasReadBounds
  := by
  intro p hp r hr
  obtain ⟨t, -, -, read⟩ := (he.ports p hp).range r hr
  obtain ⟨⟨l, left, hl⟩, -⟩ := Range.bound_of_ofText read (Or.inl rfl)
  obtain ⟨⟨m, right, hm⟩, -⟩ := Range.bound_of_ofText read (Or.inr rfl)
  use ⟨l, hl, left⟩, m, hm, right

namespace Record

/-- The bounds of a range from a record are read. -/
theorem Width.isRead_of_range_eq_ok {w : Width} {r : Range} (h : w.range = .ok r) :
  r.left.IsRead ∧ r.right.IsRead
  := by
  rw [Width.range] at h
  split at h
  · simp at h
  · split at h
    · simp at h
    · next nonempty =>
      simp only [Bool.or_eq_true, decide_eq_true_eq, not_or] at nonempty
      obtain rfl := (Except.ok.inj h).symm
      apply And.intro ⟨w.left, nonempty.1, rfl⟩ ⟨w.right, nonempty.2, rfl⟩

/-- The bounds of an entity from a record are read. -/
theorem hasReadBounds_of_entity_eq_ok {record : Record} {e : Entity} (h : record.entity = .ok e) :
  e.HasReadBounds
  := by
  simp only [entity, bind_eq_ok] at h
  obtain ⟨generics, -, ports, read, made⟩ := h
  obtain ⟨-, -, rfl⟩ := Entity.ofParts_eq_ok_iff.1 made
  intro p hp r hr
  obtain ⟨entry, -, read⟩ := exists_of_mem_of_mapM_eq_ok read hp
  simp only [PortEntry.port, bind_eq_ok, mapError_eq_ok, Port.ofParts_eq_ok_iff] at read
  obtain ⟨name, -, mode, -, type, -, range, ranged, -, -, -, rfl, -⟩ := read
  rw [PortEntry.range.eq_def] at ranged
  split at ranged
  · next w width =>
    rw [mapError_eq_ok] at ranged
    cases made : w.range with
    | error e => simp [made, Except.map] at ranged
    | ok range =>
      rw [made] at ranged
      have same : some range = p.range := Except.ok.inj ranged
      obtain rfl : range = r := by simpa [← same] using hr
      apply Width.isRead_of_range_eq_ok made
  · have same : none = p.range := Except.ok.inj ranged
    simp [← same] at hr

/-! ### Entities of records -/

theorem identifier_text (i : Identifier) :
  identifier i.text = .ok i
  := by
  rw [identifier, mapError_eq_ok, Identifier.ofText_eq_ok_iff]

theorem GenericEntry.generic_ofGeneric (g : Generic) :
  (ofGeneric g).generic = .ok g
  := by
  rw [generic, ofGeneric, identifier_text]
  rfl

/-- The range of an entry has the direction with the keyword and the bounds of the texts. -/
theorem Width.range_eq_ok {w : Width} {d : Direction} (hd : Direction.ofName? w.direction = some d)
    (hl : w.left.trim ≠ []) (hr : w.right.trim ≠ []) :
  w.range = .ok ⟨.ofText w.left, .ofText w.right, d⟩
  := by
  rw [Width.range, hd]
  apply if_neg
  simp [hl, hr]

/-- The range of an entry is the range from which it is made, if its bounds are read. -/
theorem Width.range_ofRange {r : Range} (hl : r.left.IsRead) (hr : r.right.IsRead) :
  (ofRange r).range = .ok r
  := by
  have direction : Direction.ofName? r.direction.name = some r.direction := by
    cases r.direction <;> rfl
  obtain ⟨left, sameLeft⟩ := hl.ofText_text
  obtain ⟨right, sameRight⟩ := hr.ofText_text
  apply (range_eq_ok direction left right).trans
  rw [ofRange, sameLeft, sameRight]

/-- The port of an entry is the port from which it is made, if its bounds are read. -/
theorem PortEntry.port_ofPort {p : Port} (hp : ∀ r ∈ p.range, r.left.IsRead ∧ r.right.IsRead) :
  (ofPort p).port = .ok p
  := by
  have mode : (ofPort p).mode = .ok p.mode := by
    simp [PortEntry.mode, ofPort]
  have type : (ofPort p).dataType = .ok p.type := by
    simp [PortEntry.dataType, ofPort]
  have range : (ofPort p).range = .ok p.range := by
    rw [PortEntry.range, ofPort]
    cases h : p.range with
    | none => rfl
    | some r =>
      obtain ⟨left, right⟩ := hp r h
      simp only [Option.map_some]
      rw [Width.range_ofRange left right]
      rfl
  apply bind_eq_ok.2 ⟨_, identifier_text p.name, ?_⟩
  apply bind_eq_ok.2 ⟨_, mode, ?_⟩
  apply bind_eq_ok.2 ⟨_, type, ?_⟩
  apply bind_eq_ok.2 ⟨_, range, ?_⟩
  rw [mapError_eq_ok]
  apply Port.ofParts_eq_ok_iff.2 ⟨rfl, rfl, rfl, rfl, rfl⟩

/-- An entity whose bounds are read is the entity of its record. -/
theorem entity_ofEntity {e : Entity} (he : e.HasReadBounds) :
  (ofEntity e).entity = .ok e
  := by
  have generics : (ofEntity e).generics.mapM GenericEntry.generic = .ok e.generics := by
    rw [mapM_eq_ok, ofEntity, List.forall₂_map_left_iff, List.forall₂_same]
    intro g _
    apply GenericEntry.generic_ofGeneric
  have ports : (ofEntity e).ports.mapM PortEntry.port = .ok e.ports := by
    rw [mapM_eq_ok, ofEntity, List.forall₂_map_left_iff, List.forall₂_same]
    intro p hp
    apply PortEntry.port_ofPort (he p hp)
  apply bind_eq_ok.2 ⟨_, generics, ?_⟩
  apply bind_eq_ok.2 ⟨_, ports, ?_⟩
  apply Entity.ofParts_eq_ok_iff.2 ⟨rfl, rfl, rfl⟩

/-- The bounds of an entity that is read from the text of a record are read. -/
theorem hasReadBounds_of_readEntity_eq_ok {t : Text} {e : Entity} (h : readEntity t = .ok e) :
  e.HasReadBounds
  := by
  simp only [readEntity, bind_eq_ok, mapError_eq_ok] at h
  obtain ⟨record, -, h⟩ := h
  apply hasReadBounds_of_entity_eq_ok h

/-- An entity is read from the text of its record if its bounds are read. -/
theorem readEntity_text {e : Entity} (he : e.HasReadBounds) :
  readEntity (ofEntity e).text = .ok e
  := by
  apply bind_eq_ok.2 ⟨_, ofText_text _, ?_⟩
  rw [mapError_eq_ok, entity_ofEntity he]

/-- An entity from source or from a record is read again from the text of its record. -/
theorem readEntity_text_ofEntity {e : Entity}
    (h : (∃ t, Entity.ofSource t = .ok e) ∨ ∃ t, readEntity t = .ok e) :
  readEntity (ofEntity e).text = .ok e
  := by
  have bounds : e.HasReadBounds := by
    rcases h with ⟨t, h⟩ | ⟨t, h⟩
    · apply (Entity.isRead_of_ofSource_eq_ok h).hasReadBounds
    · simp only [readEntity, bind_eq_ok, mapError_eq_ok] at h
      obtain ⟨record, -, h⟩ := h
      apply hasReadBounds_of_entity_eq_ok h
  apply bind_eq_ok.2 ⟨_, ofText_text _, ?_⟩
  rw [mapError_eq_ok, entity_ofEntity bounds]

/-- The shifter is read again from the text of its record. -/
theorem readEntity_text_shifter :
  Entity.ofSource shifterSource = .ok shifter ∧
    readEntity (ofEntity shifter).text = .ok shifter
  := ⟨ofSource_shifter, readEntity_text_ofEntity (Or.inl ⟨_, ofSource_shifter⟩)⟩

end Record

end Testbench
