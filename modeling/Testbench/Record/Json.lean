import Testbench.Json.Reading
import Testbench.Record.Basic

/-!
# Records in JSON

`Record.text` writes a record as a JSON text, and `Record.ofText` reads one.  A group of
fields is an object, or an array that holds the fields in their order; a field that need
not be there may be left out of an object or be `null`.  Members that a record does not
know are passed over.
-/

namespace Testbench.Record

/-- Why a text is not the record of an entity. -/
inductive ReadError where
  | malformed
  | missingField (path : Text)
  | invalid (e : Vhdl.Error)
  deriving DecidableEq

/-- The wording of an error. -/
def ReadError.message : ReadError → Text
  | .malformed => "interchange record is malformed"
  | .missingField path => "interchange record is missing required field " ++ path.quoted
  | .invalid e => e.message

/-! ### Writing -/

/-- A text, or `null`. -/
def optionalText (t : Option Text) : Json :=
  match t with
  | some t => .string t
  | none => .null

/-- The object of a range. -/
def Width.json (w : Width) : Json :=
  .object [("left", .string w.left), ("right", .string w.right),
    ("direction", .string w.direction)]

/-- The object of a generic. -/
def GenericEntry.json (g : GenericEntry) : Json :=
  .object [("name", .string g.name), ("data_type", .string g.type),
    ("default_value", optionalText g.default)]

/-- The object of a port. -/
def PortEntry.json (p : PortEntry) : Json :=
  .object [("name", .string p.name), ("direction", .string p.direction),
    ("data_type", .string p.type), ("width", (p.width.map Width.json).getD .null),
    ("default_value", optionalText p.default)]

/-- The object of the metadata. -/
def Metadata.json (m : Metadata) : Json :=
  .object [("parser_version", .string m.version),
    ("supported_types", .array (m.supportedTypes.map Json.string))]

/-- The description of the entity in a record. -/
def description (r : Record) : Json :=
  .object [("name", .string r.name), ("generics", .array (r.generics.map GenericEntry.json)),
    ("ports", .array (r.ports.map PortEntry.json))]

/-- The object of a record. -/
def json (r : Record) : Json :=
  .object (("vhdl_entity", r.description) ::
    (r.metadata.map fun m => (("metadata" : Text), m.json)).toList)

/-- A record as it is written. -/
def text (r : Record) : Text := r.json.pretty

/-! ### Fields -/

/-- Whether a value is a group of fields: an object, or an array with a number of items
between `least` and `most`. -/
def isGroup (least most : Nat) : Json → Bool
  | .object _ => true
  | .array items => least ≤ items.length && items.length ≤ most
  | _ => false

/-- The field of a group with a name, which is the item with an index when the group is
an array. -/
def field? (index : Nat) (name : Text) : Json → Option Json
  | .array items => items[index]?
  | v => v.member? name

/-- The text of a field that must be there. -/
def textField? (index : Nat) (name : Text) (v : Json) : Option Text :=
  field? index name v >>= Json.string?

/-- The value that `read` gives for a field, which may be missing or `null`. -/
def optionalField? {α : Type} (index : Nat) (name : Text) (read : Json → Option α)
    (v : Json) : Option (Option α) :=
  match field? index name v with
  | none => some none
  | some .null => some none
  | some w => (read w).map some

/-- The items of a field that may be missing, as `read` gives them. -/
def listField? {α : Type} (index : Nat) (name : Text) (read : Json → Option α)
    (v : Json) : Option (List α) :=
  match field? index name v with
  | none => some []
  | some w => w.items? >>= List.mapM read

/-! ### Reading -/

/-- Reads the range of a port. -/
def Width.ofJson? (v : Json) : Option Width := do
  guard (isGroup 3 3 v)
  return ⟨← textField? 0 "left" v, ← textField? 1 "right" v, ← textField? 2 "direction" v⟩

/-- Reads a generic. -/
def GenericEntry.ofJson? (v : Json) : Option GenericEntry := do
  guard (isGroup 3 3 v)
  return ⟨← textField? 0 "name" v, ← textField? 1 "data_type" v,
    ← optionalField? 2 "default_value" Json.string? v⟩

/-- Reads a port. -/
def PortEntry.ofJson? (v : Json) : Option PortEntry := do
  guard (isGroup 5 5 v)
  return ⟨← textField? 0 "name" v, ← textField? 1 "direction" v,
    ← textField? 2 "data_type" v,
    ← optionalField? 3 "width" Width.ofJson? v,
    ← optionalField? 4 "default_value" Json.string? v⟩

/-- Reads the metadata. -/
def Metadata.ofJson? (v : Json) : Option Metadata := do
  guard (isGroup 1 2 v)
  return ⟨← textField? 0 "parser_version" v,
    ← listField? 1 "supported_types" Json.string? v⟩

/-- Reads the record in a value, given the description of its entity. -/
def ofJson? (v description : Json) : Option Record := do
  return ⟨← textField? 0 "name" description,
    ← listField? 1 "generics" GenericEntry.ofJson? description,
    ← (field? 2 "ports" description >>= Json.items?) >>= List.mapM PortEntry.ofJson?,
    ← optionalField? 1 "metadata" Metadata.ofJson? v⟩

/-- The member of a value with a key, which is missing under `path` if there is none. -/
def required (path key : Text) (v : Json) : Except ReadError Json :=
  match v.member? key with
  | some w => .ok w
  | none => .error (.missingField path)

/-- Reads a record. -/
def ofText (t : Text) : Except ReadError Record := do
  let some v := Json.ofText? t | .error .malformed
  let description ← required "vhdl_entity" "vhdl_entity" v
  if (← required "vhdl_entity.name" "name" description).isNull then
    .error (.missingField "vhdl_entity.name")
  if (← required "vhdl_entity.ports" "ports" description).isNull then
    .error (.missingField "vhdl_entity.ports")
  match ofJson? v description with
  | some r => .ok r
  | none => .error .malformed

/-- The entity that a text describes as a record. -/
def readEntity (t : Text) : Except ReadError Vhdl.Entity := do
  (← ofText t).entity.mapError .invalid

end Testbench.Record
