import Testbench.Text.Decimal
import Testbench.Text.Quoted
import Testbench.Vhdl.DataType
import Testbench.Vhdl.Nesting

/-!
# Ranges

The range of a vector has two bounds and a direction.  A bound is a number below `2 ^ 64`
or an expression kept as it is written.  `Range.ofText` reads `L downto R`, `L to R` and
a pair of numbers `L, R`, whose direction is the one in which it counts.
-/

namespace Testbench.Vhdl

/-- A bound of a range: a number, or an expression as it is written. -/
inductive Bound where
  | int (n : Nat)
  | expr (t : Text)
  deriving DecidableEq

namespace Bound

/-- The numbers that a bound may have lie below this one. -/
def limit : Nat := Nat.pow 2 64

/-- The bound that a text writes: its digits when it consists of digits alone and their
value is below the limit, and an expression otherwise. -/
def ofText (t : Text) : Bound :=
  match t.trim.decimal? limit with
  | some n => .int n
  | none => .expr t.trim

/-- The bound as it is written. -/
def text : Bound → Text
  | .int n => Text.ofNat n
  | .expr t => t

/-- The number of a bound that has one. -/
def int? : Bound → Option Nat
  | .int n => some n
  | .expr _ => none

end Bound

/-- The direction in which the indices of a range run. -/
inductive Direction where
  | down
  | up
  deriving DecidableEq

namespace Direction

/-- The keyword of a direction. -/
def name : Direction → Text
  | down => "downto"
  | up => "to"

/-- The direction with a keyword, in any case. -/
def ofName? (t : Text) : Option Direction :=
  [down, up].find? fun d => d.name == t.lower

/-- The message about a text that is no direction. -/
def unknown (t : Text) : Text := "unknown range direction " ++ t.quoted

end Direction

/-- A range of indices. -/
structure Range where
  left : Bound
  right : Bound
  direction : Direction
  deriving DecidableEq

namespace Range

/-- What is wrong with a range, or with a port for its range. -/
inductive Fault where
  | empty
  | missingBound
  | missingDirection
  | unknownDirection (t : Text)
  | required (d : DataType)
  | notAllowed (d : DataType)
  deriving DecidableEq

/-- The wording of a fault. -/
def Fault.message : Fault → Text
  | .empty => "empty range"
  | .missingBound => "missing bound"
  | .missingDirection => "expected 'downto' or 'to'"
  | .unknownDirection t => Direction.unknown t
  | .required d => d.name ++ " requires a range"
  | .notAllowed d => d.name ++ " cannot have a range"

/-- The range as it is written. -/
def text (r : Range) : Text :=
  r.left.text ++ " " ++ r.direction.name ++ " " ++ r.right.text

/-- The number of indices between two number bounds, both of them counted, when it is
below the limit of bounds. -/
def width? (r : Range) : Option Nat := do
  let l ← r.left.int?
  let m ← r.right.int?
  let w := (l - m) + (m - l) + 1
  if w < Bound.limit then some w else none

/-- The range with the direction `d` in a text that has its keyword at the outer level. -/
def ofDirection? (t : Text) (d : Direction) : Option (Except Fault Range) := do
  let (left, right) ← splitWord? d.name t
  if left.trim = [] || right.trim = [] then some (.error .missingBound)
  else some (.ok ⟨.ofText left, .ofText right, d⟩)

/-- The range between a pair of numbers that a comma separates. -/
def ofPair? (t : Text) : Option Range :=
  match (split ',' t).map Bound.ofText with
  | [.int l, .int r] => some ⟨.int l, .int r, if r ≤ l then .down else .up⟩
  | _ => none

/-- Reads a range. -/
def ofText (t : Text) : Except Fault Range :=
  let t := t.trim
  if t = [] then .error .empty
  else
    match ofDirection? t .down with
    | some r => r
    | none =>
      match ofDirection? t .up with
      | some r => r
      | none =>
        match ofPair? t with
        | some r => .ok r
        | none => .error .missingDirection

end Range

end Testbench.Vhdl
