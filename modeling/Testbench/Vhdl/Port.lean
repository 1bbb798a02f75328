import Testbench.Vhdl.Error

/-!
# Ports

A port of an entity has a name, a mode, a data type, a range when its type is a vector
type, and possibly a default.  `Port.ofDeclaration` reads a declaration
`names : mode type (range) := default`; without a mode the ports are inputs.
-/

namespace Testbench.Vhdl

/-- The direction of a port. -/
inductive Mode where
  | input
  | output
  | inout
  deriving DecidableEq

namespace Mode

/-- The keyword of a mode. -/
def name : Mode → Text
  | input => "in"
  | output => "out"
  | inout => "inout"

/-- The mode with a keyword, in any case. -/
def ofName? (t : Text) : Option Mode :=
  [input, output, inout].find? fun m => m.name == t.lower

/-- Whether a port of the mode is driven from outside. -/
def isInput : Mode → Bool
  | input | inout => true
  | output => false

end Mode

/-- A port of an entity. -/
structure Port where
  name : Identifier
  mode : Mode
  type : DataType
  range : Option Range
  default : Option Text
  /-- Vector types have a range, and other types have none. -/
  range_isSome : range.isSome = type.isVector
  deriving DecidableEq

namespace Port

/-- The type of a port as a declaration writes it. -/
def subtype (p : Port) : Text :=
  match p.range with
  | some r => p.type.name ++ "(" ++ r.text ++ ")"
  | none => p.type.name

/-- What is wrong with a range, or its absence, for a data type. -/
def rangeFault (type : DataType) : Range.Fault :=
  if type.isVector then .required type else .notAllowed type

/-- A port, provided that it has a range exactly when its type is a vector type. -/
def ofParts (name : Identifier) (mode : Mode) (type : DataType) (range : Option Range)
    (default : Option Text) : Except Range.Fault Port :=
  if h : range.isSome = type.isVector then .ok ⟨name, mode, type, range, default, h⟩
  else .error (rangeFault type)

/-! ### Reading declarations -/

/-- What a declaration says about all of its ports. -/
structure Shape where
  mode : Mode
  type : DataType
  range : Option Range

/-- The mode and the rest of the subtype of a declaration, whose first port is `first`.
A first word that is no mode must be a type. -/
def readMode (declaration first subtype : Text) : Except Error (Mode × Text) :=
  match nextWord? subtype with
  | none => .error (.malformedPort declaration .missingType)
  | some (word, rest) =>
    match Mode.ofName? word with
    | some m => .ok (m, rest)
    | none =>
      if (DataType.ofName? word).isSome then .ok (.input, subtype)
      else if (nextWord? rest).isSome then
        .error (.malformedPort declaration (.unknownMode word))
      else .error (.unsupportedType word first)

/-- The range in parentheses that a text begins with, if it does, and the rest. -/
def readRange (declaration t : Text) : Except Error (Option Range × Text) :=
  match t with
  | '(' :: inside =>
    match splitClosing? inside with
    | none => .error (.malformedPort declaration .missingClose)
    | some (inside, rest) =>
      match Range.ofText inside with
      | .ok r => .ok (some r, rest)
      | .error f => .error (.invalidRange declaration f)
  | _ => .ok (none, t)

/-- Reads the subtype of a declaration, whose first port is `first`. -/
def readSubtype (declaration first subtype : Text) : Except Error Shape := do
  let (mode, indication) ← readMode declaration first subtype
  match nextWord? indication with
  | none => .error (.malformedPort declaration .missingType)
  | some (word, rest) =>
    match DataType.ofName? word with
    | none => .error (.unsupportedType word first)
    | some type =>
      let (range, tail) ← readRange declaration rest.trimStart
      if tail.trim = [] then .ok ⟨mode, type, range⟩
      else if (stripWord? "range" tail.trim).isSome then
        .error (.unsupportedType indication.trim first)
      else .error (.malformedPort declaration (.trailingText tail.trim))

/-- The ports of one declaration. -/
def ofDeclaration (declaration : Text) : Except Error (List Port) := do
  let malformed := Error.malformedPort declaration
  let (before, rest) ← (Declaration.splitNames declaration).mapError malformed
  let names ← (Declaration.names "signal" before).mapError malformed
  let first := (names.head?.map Identifier.text).getD []
  let (subtype, default) ← (Declaration.splitDefault rest).mapError malformed
  let shape ← readSubtype declaration first subtype
  names.mapM fun n =>
    (ofParts n shape.mode shape.type shape.range default).mapError (.invalidRange declaration)

/-- The ports that the body of an entity declares, in order. -/
def ofBody (body : Text) : Except Error (List Port) := do
  match ← (Declaration.clause? "port" body).mapError (.malformedPort "port") with
  | none => return []
  | some inside => return (← (Declaration.list inside).mapM ofDeclaration).flatten

end Port

end Testbench.Vhdl
