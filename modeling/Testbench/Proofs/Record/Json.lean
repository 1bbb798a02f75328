import Testbench.Proofs.Json.Reading
import Testbench.Record.Json

/-!
# Records that are written and read

Every record is read again from its text.  The values of its parts hold no numbers and are
shallow, so that the text is read as the value, and each group of fields is read from its
object.
-/

namespace Testbench.Record

open Json

variable {n : Nat}

/-! ### Values without numbers -/

theorem plain_optionalText (t : Option Text) :
  Plain n (optionalText t)
  := by
  cases t with
  | none => apply Plain.null
  | some t => apply Plain.string t

theorem Width.plain_json (w : Width) :
  Plain (n + 1) w.json
  := by
  apply Plain.object
  simp [Plain.string]

theorem GenericEntry.plain_json (g : GenericEntry) :
  Plain (n + 1) g.json
  := by
  apply Plain.object
  simp [Plain.string, plain_optionalText]

theorem PortEntry.plain_json (p : PortEntry) :
  Plain (n + 2) p.json
  := by
  apply Plain.object
  cases p.width with
  | none => simp [Plain.string, Plain.null, plain_optionalText]
  | some w => simp [Plain.string, plain_optionalText, Width.plain_json]

theorem Metadata.plain_json (m : Metadata) :
  Plain (n + 2) m.json
  := by
  apply Plain.object
  intro member hm
  simp only [List.mem_cons, List.not_mem_nil, or_false] at hm
  rcases hm with rfl | rfl
  · apply Plain.string
  · apply Plain.array
    simp [Plain.string]

theorem plain_json (r : Record) :
  Plain 5 r.json
  := by
  have description : Plain 4 r.description := by
    apply Plain.object
    intro member hm
    simp only [List.mem_cons, List.not_mem_nil, or_false] at hm
    rcases hm with rfl | rfl | rfl
    · apply Plain.string
    · apply Plain.array
      simp [GenericEntry.plain_json]
    · apply Plain.array
      simp [PortEntry.plain_json]
  apply Plain.object
  cases r.metadata with
  | none => simp [description]
  | some m => simp [description, Metadata.plain_json]

/-! ### Reading fields -/

theorem Width.ofJson?_json (w : Width) :
  Width.ofJson? w.json = some w
  := rfl

theorem optionalField?_optionalText {index : Nat} {name : Text} {v : Json} {t : Option Text}
    (h : field? index name v = some (optionalText t)) :
  optionalField? index name Json.string? v = some t
  := by
  rw [optionalField?, h]
  cases t <;> rfl

theorem GenericEntry.ofJson?_json (g : GenericEntry) :
  GenericEntry.ofJson? g.json = some g
  := by
  have default : optionalField? 2 "default_value" Json.string? g.json = some g.default :=
    optionalField?_optionalText rfl
  rw [GenericEntry.ofJson?, default]
  rfl

theorem PortEntry.ofJson?_json (p : PortEntry) :
  PortEntry.ofJson? p.json = some p
  := by
  have default : optionalField? 4 "default_value" Json.string? p.json = some p.default :=
    optionalField?_optionalText rfl
  have width : optionalField? 3 "width" Width.ofJson? p.json = some p.width := by
    have field : field? 3 "width" p.json = some ((p.width.map Width.json).getD .null) := rfl
    rw [optionalField?, field]
    cases p.width <;> rfl
  rw [PortEntry.ofJson?, default, width]
  rfl

/-- A list is read from the values of its members. -/
theorem mapM_map {α : Type} {read : Json → Option α} {write : α → Json}
    (h : ∀ x, read (write x) = some x) (xs : List α) :
  (xs.map write).mapM read = some xs
  := by
  induction xs with
  | nil => rfl
  | cons x xs ih =>
    rw [List.map_cons, List.mapM_cons, h, ih]
    rfl

theorem listField?_array {α : Type} {index : Nat} {name : Text} {v : Json}
    {read : Json → Option α} (write : α → Json) {xs : List α} (h : ∀ x, read (write x) = some x)
    (field : field? index name v = some (.array (xs.map write))) :
  listField? index name read v = some xs
  := by
  rw [listField?, field]
  apply mapM_map h

theorem Metadata.ofJson?_json (m : Metadata) :
  Metadata.ofJson? m.json = some m
  := by
  have types : listField? 1 "supported_types" Json.string? m.json = some m.supportedTypes :=
    listField?_array Json.string (fun _ => rfl) rfl
  rw [Metadata.ofJson?, types]
  rfl

/-! ### Reading records -/

variable (r : Record)

theorem member?_description :
  r.json.member? "vhdl_entity" = some r.description
  := by
  rw [json]
  cases r.metadata <;> rfl

theorem optionalField?_metadata :
  optionalField? 1 "metadata" Metadata.ofJson? r.json = some r.metadata
  := by
  rw [json]
  cases metadata : r.metadata with
  | none => rfl
  | some m =>
    have field : field? 1 "metadata" (.object (("vhdl_entity", r.description) ::
        ((some m).map fun m => (("metadata" : Text), m.json)).toList)) = some m.json := rfl
    rw [optionalField?, field]
    change (Metadata.ofJson? m.json).map some = some (some m)
    rw [Metadata.ofJson?_json]
    rfl

theorem ofJson?_json :
  ofJson? r.json r.description = some r
  := by
  have generics : listField? 1 "generics" GenericEntry.ofJson? r.description = some r.generics :=
    listField?_array GenericEntry.json GenericEntry.ofJson?_json rfl
  have ports : (field? 2 "ports" r.description >>= Json.items?) >>= List.mapM PortEntry.ofJson? =
      some r.ports := mapM_map PortEntry.ofJson?_json r.ports
  rw [ofJson?, generics, ports, optionalField?_metadata]
  rfl

/-- Every record is read again from its text. -/
theorem ofText_text :
  ofText r.text = .ok r
  := by
  have value : Json.ofText? r.text = some r.json := Json.ofText?_pretty r.plain_json (by decide)
  have description : required "vhdl_entity" "vhdl_entity" r.json = .ok r.description := by
    rw [required, member?_description]
  have name : required "vhdl_entity.name" "name" r.description = .ok (.string r.name) := rfl
  have ports : required "vhdl_entity.ports" "ports" r.description =
      .ok (.array (r.ports.map PortEntry.json)) := rfl
  rw [ofText, value]
  simp only [description, bind, Except.bind, name, ports, isNull, Bool.false_eq_true, if_false,
    ofJson?_json]

end Testbench.Record
