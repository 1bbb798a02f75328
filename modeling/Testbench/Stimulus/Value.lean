import Testbench.Vhdl.Port

/-!
# Values

A `Value` is what a bench assigns to a port.  `Value.fits` says to ports of which types
it may be assigned.
-/

namespace Testbench.Stimulus

open Vhdl

/-- A value for a port: a logic bit, a truth value, a number, the bits of a vector from
the most significant on, a vector with equal bits, or a vector in which only the bit with
an index is set. -/
inductive Value where
  | bit (b : Bool)
  | truth (b : Bool)
  | int (n : Int)
  | literal (bits : Text)
  | fill (b : Bool)
  | setBit (index : Bound)
  deriving DecidableEq

namespace Value

/-- The logic value of `b` for a port of a type: a truth value for the type of truth
values and a bit for others. -/
def logic (d : DataType) (b : Bool) : Value :=
  if d.kind = .boolean then .truth b else .bit b

/-- Whether a value may be assigned to a port of a type. -/
def fits (v : Value) (d : DataType) : Bool :=
  match v, d.kind with
  | .bit _, .bit => true
  | .truth _, .boolean => true
  | .int n, .numeric =>
      if d = .natural then decide (0 ≤ n) else if d = .positive then decide (1 ≤ n) else true
  | .literal _, .vector => true
  | .fill _, .vector => true
  | .setBit _, .vector => true
  | _, _ => false

/-- The value that a port of a type has by default. -/
def initial (d : DataType) : Value :=
  match d.kind with
  | .bit | .boolean => logic d false
  | .numeric => .int (if d = .positive then 1 else 0)
  | .vector => .fill false

/-- The name of a truth value. -/
def truthName (b : Bool) : Text := if b then "true" else "false"

/-- The digit of a bit. -/
def digit (b : Bool) : Char := if b then '1' else '0'

/-- The value as messages show it. -/
def shown : Value → Text
  | .bit b => "Bit(" ++ truthName b ++ ")"
  | .truth b => "Bool(" ++ truthName b ++ ")"
  | .int n => "Int(" ++ Text.ofInt n ++ ")"
  | .literal t => "Literal(" ++ t.quoted ++ ")"
  | .fill b => "Fill(" ++ truthName b ++ ")"
  | .setBit (.int n) => "SetBit(Int(" ++ Text.ofNat n ++ "))"
  | .setBit (.expr t) => "SetBit(Expr(" ++ t.quoted ++ "))"

end Value

end Testbench.Stimulus
