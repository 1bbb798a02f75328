import Testbench.Toml.Time

/-!
# TOML values

A `Toml` is a value of the TOML data format.  A table remembers how it came about, because
this decides whether it may still be added to.  Real numbers are told from other values
but not kept: no setting is one.
-/

namespace Testbench

/-- How a table came about: on the way to another one, by a key with dots, by a header of
its own, or in braces. -/
inductive Toml.Origin where
  | implicit
  | dotted
  | header
  | inline
  deriving DecidableEq

/-- A TOML value. -/
inductive Toml where
  | string (t : Text)
  | integer (n : Int)
  | boolean (b : Bool)
  | real
  | time (t : Toml.Time)
  | array (items : List Toml)
  | table (origin : Toml.Origin) (entries : List (Text × Toml))
  | tables (items : List (List (Text × Toml)))

namespace Toml

/-- The entries of a table, in the order in which their keys were first written. -/
abbrev Entries := List (Text × Toml)

/-- The value of a key. -/
def Entries.get? (key : Text) (entries : Entries) : Option Toml :=
  (entries.find? fun (k, _) => k == key).map (·.2)

/-- The entries with another value for a key, which stands at the end if it is new. -/
def Entries.set (key : Text) (v : Toml) : Entries → Entries
  | [] => [(key, v)]
  | (k, w) :: r => if k = key then (k, v) :: r else (k, w) :: Entries.set key v r

end Toml

end Testbench
