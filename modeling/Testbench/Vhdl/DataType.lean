import Testbench.Text.Case

/-!
# Data types of ports

The types that a port may have, each of a `Kind` that decides which values it takes and
whether it needs a range.
-/

namespace Testbench.Vhdl

/-- The types that a port may have. -/
inductive DataType where
  | stdLogic
  | stdULogic
  | bit
  | boolean
  | integer
  | natural
  | positive
  | stdLogicVector
  | stdULogicVector
  | bitVector
  | signed
  | unsigned
  deriving DecidableEq

namespace DataType

/-- A kind of data types: one logic bit, a truth value, a number, or an array of bits. -/
inductive Kind where
  | bit
  | boolean
  | numeric
  | vector
  deriving DecidableEq

/-- All data types, in the order in which they are listed. -/
def all : List DataType :=
  [stdLogic, stdULogic, bit, boolean, integer, natural, positive,
    stdLogicVector, stdULogicVector, bitVector, signed, unsigned]

/-- The name of a data type in lower case. -/
def name : DataType → Text
  | stdLogic => "std_logic"
  | stdULogic => "std_ulogic"
  | bit => "bit"
  | boolean => "boolean"
  | integer => "integer"
  | natural => "natural"
  | positive => "positive"
  | stdLogicVector => "std_logic_vector"
  | stdULogicVector => "std_ulogic_vector"
  | bitVector => "bit_vector"
  | signed => "signed"
  | unsigned => "unsigned"

/-- The kind of a data type. -/
def kind : DataType → Kind
  | stdLogic | stdULogic | bit => .bit
  | boolean => .boolean
  | integer | natural | positive => .numeric
  | stdLogicVector | stdULogicVector | bitVector | signed | unsigned => .vector

/-- Whether a port of the type has a range. -/
def isVector (d : DataType) : Bool := d.kind == .vector

/-- Whether the type is a single bit or a truth value. -/
def isScalarBit (d : DataType) : Bool := d.kind == .bit || d.kind == .boolean

/-- The data type with a name, in any case. -/
def ofName? (t : Text) : Option DataType := all.find? fun d => d.name == t.lower

/-- A data type is found by its name. -/
@[simp]
theorem ofName?_name (d : DataType) :
  ofName? d.name = some d
  := by
  cases d <;> rfl

end DataType

end Testbench.Vhdl
