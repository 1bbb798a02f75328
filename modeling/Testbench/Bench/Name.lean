import Testbench.Vhdl.Entity

/-!
# Fresh names

A bench needs names of its own beside those of the entity it drives.  `freshName e base`
is the first of `base`, `base_1`, `base_2`, ... that the entity leaves free.  One more
candidate than there are names suffices, because the candidates are different.
-/

namespace Testbench.Bench

open Vhdl

/-- The candidates for a name: the base itself, and the base with a number behind it. -/
def candidate (base : Text) : Nat → Text
  | 0 => base
  | i + 1 => base ++ "_" ++ Text.ofNat (i + 1)

/-- The number of names of an entity, its own included. -/
def nameCount (e : Entity) : Nat := e.interfaceNames.length + 1

/-- The first candidate that is not a name of the entity.  The candidates are counted by a natural
number; a counter of 32 bits, of which half are positive, runs over only for an entity that declares
more than two thousand million of them. -/
def freshName (e : Entity) (base : Text) : Text :=
  (((List.range (nameCount e + 1)).map (candidate base)).find? fun n => !e.isTaken n).getD base

end Testbench.Bench
