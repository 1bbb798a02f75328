import Testbench.Config.Basic
import Testbench.Vhdl.Generic

/-!
# Constants and initial values

The generics of an entity become constants of its bench, and its ports become signals.
`constantValue` and `initialValue` are the values with which they are declared.
-/

namespace Testbench.Bench

open Vhdl Stimulus

/-- Why no bench can be made for an entity: a port or generic with the name of the
entity, a generic without a value, or a value that does not fit its port. -/
inductive Error where
  | sharedName (name entity : Text)
  | missingValue (type generic : Text)
  | misfit (type : DataType) (value : Value) (port : Text)
  deriving DecidableEq

/-- The name or type that an error is about. -/
def Error.subject : Error → Text
  | .sharedName name _ => name
  | .missingValue type _ => type
  | .misfit type _ _ => type.name

/-- The reason that an error gives. -/
def Error.reason : Error → Text
  | .sharedName _ entity =>
      "name is shared with entity " ++ entity.quoted ++ " and would hide its component"
  | .missingValue _ generic =>
      "generic " ++ generic.quoted ++ " has no default value; set one under [generics]"
  | .misfit _ value port => "value " ++ value.shown ++ " does not fit port " ++ port.quoted

/-- The wording of an error. -/
def Error.message (e : Error) : Text :=
  "cannot generate code for " ++ e.subject.quoted ++ ": " ++ e.reason

/-! ### Values of constants -/

/-- The name of the type at the start of a subtype indication, in lower case. -/
def baseType (type : Text) : Text :=
  Text.lower (type.takeWhile fun c => c != '(' && !isBlank c)

/-- The types of which a value can be named, with this value. -/
def scalarPlaceholders : List (Text × Text) :=
  [("integer", "0"), ("natural", "0"), ("positive", "1"), ("boolean", "false"),
    ("std_logic", "'0'"), ("std_ulogic", "'0'"), ("bit", "'0'"), ("time", "0 ns"),
    ("real", "0.0"), ("string", "\"\"")]

/-- The array types of which a value can be named when they are constrained. -/
def vectorTypes : List Text :=
  ["std_logic_vector", "std_ulogic_vector", "bit_vector", "signed", "unsigned"]

/-- A value for a generic of a type, if one can be named. -/
def placeholder? (type : Text) : Option Text :=
  match scalarPlaceholders.lookup (baseType type) with
  | some v => some v
  | none =>
      if vectorTypes.contains (baseType type) && type.contains '(' then some "(others => '0')"
      else none

/-- The value of the constant for a generic: the configured one, or its default, or a
value named for its type. -/
def constantValue (config : Config) (g : Generic) : Except Error Text :=
  match config.generic? g.name.text <|> g.default <|> placeholder? g.type with
  | some v => .ok v
  | none => .error (.missingValue g.type g.name.text)

/-! ### Values of signals -/

/-- A value as VHDL writes it on the right of an assignment.  A vector with one bit set
is cleared first. -/
def literal : Value → Text
  | .bit b => ['\'', Value.digit b, '\'']
  | .truth b => Value.truthName b
  | .int n => Text.ofInt n
  | .literal t => "\"" ++ t ++ "\""
  | .fill b => "(others => '" ++ [Value.digit b] ++ "')"
  | .setBit _ => "(others => '0')"

/-- A value as VHDL writes it for a port, provided that it fits. -/
def render (v : Value) (p : Port) : Except Error Text :=
  if v.fits p.type then .ok (literal v) else .error (.misfit p.type v p.name.text)

/-- The high impedance value of a type, if its values include one. -/
def highImpedance? : DataType → Option Text
  | .stdLogic | .stdULogic => some "'Z'"
  | .stdLogicVector | .stdULogicVector | .signed | .unsigned => some "(others => 'Z')"
  | _ => none

/-- The value with which the signal for a port is declared: none for an output, the
default of an input, high impedance for a port of both directions, and the initial value
of the type otherwise. -/
def initialValue (p : Port) : Except Error (Option Text) :=
  let given :=
    match p.mode with
    | .inout => highImpedance? p.type
    | _ => p.default
  match p.mode, given with
  | .output, _ => .ok none
  | _, some v => .ok (some v)
  | _, none => (render (.initial p.type) p).map some

end Testbench.Bench
