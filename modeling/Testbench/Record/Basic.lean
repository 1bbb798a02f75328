import Testbench.Vhdl.Entity

/-!
# Interchange records

A record is the description of an entity in texts alone, for other programs.
`Record.ofEntity` describes an entity, and `Record.entity` checks that a record describes
one.
-/

namespace Testbench

open Vhdl

namespace Record

/-- The range of a port in a record. -/
structure Width where
  left : Text
  right : Text
  direction : Text
  deriving DecidableEq

/-- A generic in a record. -/
structure GenericEntry where
  name : Text
  type : Text
  default : Option Text
  deriving DecidableEq

/-- A port in a record. -/
structure PortEntry where
  name : Text
  direction : Text
  type : Text
  width : Option Width
  default : Option Text
  deriving DecidableEq

/-- What is known about the program that wrote a record: its version, and the types that
it supports. -/
structure Metadata where
  version : Text
  supportedTypes : List Text
  deriving DecidableEq

/-- The version that is written into records. -/
def currentVersion : Text := "1.0"

end Record

/-- The description of an entity for other programs. -/
structure Record where
  name : Text
  generics : List Record.GenericEntry
  ports : List Record.PortEntry
  metadata : Option Record.Metadata
  deriving DecidableEq

namespace Record

/-! ### Records of entities -/

/-- The entry of a generic. -/
def GenericEntry.ofGeneric (g : Generic) : GenericEntry := ⟨g.name.text, g.type, g.default⟩

/-- The entry of a range. -/
def Width.ofRange (r : Range) : Width := ⟨r.left.text, r.right.text, r.direction.name⟩

/-- The entry of a port. -/
def PortEntry.ofPort (p : Port) : PortEntry :=
  ⟨p.name.text, p.mode.name, p.type.name, p.range.map Width.ofRange, p.default⟩

/-- The record of an entity. -/
def ofEntity (e : Entity) : Record where
  name := e.name.text
  generics := e.generics.map GenericEntry.ofGeneric
  ports := e.ports.map PortEntry.ofPort
  metadata := some ⟨currentVersion, DataType.all.map DataType.name⟩

/-! ### Entities of records -/

/-- The identifier of a name in a record. -/
def identifier (name : Text) : Except Error Identifier :=
  (Identifier.ofText name).mapError fun _ => .invalidIdentifier name

/-- The generic of an entry. -/
def GenericEntry.generic (g : GenericEntry) : Except Error Generic := do
  return ⟨← identifier g.name, g.type, g.default⟩

/-- The range of an entry. -/
def Width.range (w : Width) : Except Range.Fault Range :=
  match Direction.ofName? w.direction with
  | none => .error (.unknownDirection w.direction)
  | some d =>
      if w.left.trim = [] || w.right.trim = [] then .error .missingBound
      else .ok ⟨.ofText w.left, .ofText w.right, d⟩

/-- The mode of an entry. -/
def PortEntry.mode (p : PortEntry) : Except Error Mode :=
  match Mode.ofName? p.direction with
  | some m => .ok m
  | none => .error (.malformedPort p.name (.unknownMode p.direction))

/-- The data type of an entry. -/
def PortEntry.dataType (p : PortEntry) : Except Error DataType :=
  match DataType.ofName? p.type with
  | some d => .ok d
  | none => .error (.unsupportedType p.type p.name)

/-- The range of the entry of a port, if it has one. -/
def PortEntry.range (p : PortEntry) : Except Error (Option Range) :=
  match p.width with
  | some w => (w.range.map some).mapError (.invalidRange p.name)
  | none => .ok none

/-- The port of an entry. -/
def PortEntry.port (p : PortEntry) : Except Error Port := do
  let name ← identifier p.name
  let mode ← p.mode
  let type ← p.dataType
  let range ← p.range
  (Port.ofParts name mode type range p.default).mapError (.invalidRange p.name)

/-- The entity that a record describes. -/
def entity (r : Record) : Except Error Entity := do
  let generics ← r.generics.mapM GenericEntry.generic
  let ports ← r.ports.mapM PortEntry.port
  Entity.ofParts r.name generics ports

end Record

end Testbench
