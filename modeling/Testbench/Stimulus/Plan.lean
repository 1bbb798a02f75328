import Testbench.Stimulus.Roles
import Testbench.Stimulus.Value
import Testbench.Stimulus.Word
import Testbench.Vhdl.Entity

/-!
# Plans

A `Plan` says which values a bench gives to the inputs other than the clock and the
reset.  Inputs that are single bits or truth values take the rows of a table of
combinations together; every other input runs through a sequence of its own.
-/

namespace Testbench.Stimulus

open Vhdl

/-- A span of simulated time, in nanoseconds. -/
abbrev Delay := Nat

/-- A span of time as VHDL writes it. -/
def Delay.text (d : Delay) : Text := Text.ofNat d ++ " ns"

/-- A value and the time that passes after its assignment. -/
structure Step where
  value : Value
  delay : Delay
  deriving DecidableEq

/-- A table of values for the ports with the given indices, row by row, and the time that
passes after each row. -/
structure Combinations where
  ports : List Nat
  rows : List (List Value)
  delay : Delay
  deriving DecidableEq

/-- The values that a bench gives to the data inputs of an entity. -/
structure Plan where
  combinations : Option Combinations
  sequences : List (Nat × List Step)
  deriving DecidableEq

/-- Whether a plan drives no input. -/
def Plan.isEmpty (p : Plan) : Bool := p.combinations.isNone && p.sequences.isEmpty

/-- The largest number of inputs whose combinations are tried in turn, and the largest
number of combinations that are tried. -/
structure Limits where
  inputs : Nat
  rows : Nat
  deriving DecidableEq

/-! ### Sequences -/

/-- The binary digits of `n`, most significant first, behind zeros up to `width` digits. -/
def binary (width n : Nat) : Text := (Nat.toDigits 2 n).leftpad width '0'

/-- The word whose lowest `width` bits are set. -/
def mask? (width : Nat) : Option Nat :=
  if width = Word.size then some Word.last
  else do Word.sub? (← Word.shiftLeft? 1 width) 1

/-- The word whose bits with even indices are set. -/
def evenBits : Nat := 0x5555555555555555

/-- The word whose bits with odd indices are set. -/
def oddBits : Nat := 0xAAAAAAAAAAAAAAAA

/-- The values of a vector with `width` elements: the least numbers, the top bit alone, all
bits, and the bits with even and with odd indices.  There are none if counting them in
words overflows. -/
def vectorNumbers? (width : Nat) : Option (List Nat) := do
  let mask ← mask? width
  let top ← Word.sub? width 1
  let high ← Word.shiftLeft? 1 top
  return [0, 1, high, mask, evenBits &&& mask, oddBits &&& mask]

/-- The values of a vector whose width is not known: no bit, the one at its right bound,
all bits, and no bit again. -/
def fillValues (right : Bound) : List Value :=
  [.fill false, .setBit right, .fill true, .fill false]

/-- The values that a vector with a range runs through. -/
def vectorValues (range : Option Range) : List Value :=
  match range with
  | none => fillValues (.int 0)
  | some r =>
    match r.width? with
    | some w =>
        if w ≤ Word.size then
          ((vectorNumbers? w).getD []).map fun n => .literal (binary w n)
        else fillValues r.right
    | none => fillValues r.right

/-- The values that a port runs through when it has a sequence of its own. -/
def values (p : Port) : List Value :=
  match p.type.kind with
  | .bit | .boolean => [false, true, false].map (Value.logic p.type)
  | .numeric => (if p.type = .positive then [1, 10, 100] else [0, 1, 10, 100]).map Value.int
  | .vector => vectorValues p.range

/-- The sequence of a port, with the time that passes after each step. -/
def sequence (p : Port) (delay : Delay) : List Step := (values p).map (⟨·, delay⟩)

/-! ### Combinations -/

/-- The row that gives the logic values of `f` to ports of the given types. -/
def row (types : List DataType) (f : Nat → Bool) : List Value :=
  types.zipIdx.map fun (d, j) => Value.logic d (f j)

/-- The number of rows of a table that counts in binary with `n` digits: as many as there
are texts of so many digits, if a word can count them, and not more than `most`. -/
def rowCount (n most : Nat) : Nat :=
  min ((Word.shiftLeft? 1 (Word.places n)).getD Word.last) most

/-- Whether the bit with an index is set in a word.  No bit beyond the word is set. -/
def wordBit (n index : Nat) : Bool :=
  ((Word.shiftRight? n (Word.places index)).getD 0 &&& 1) == 1

/-- The rows of the table for ports of the given types.  Up to the limit of inputs they
count in binary, with the first port as the lowest digit; beyond it there are three
rows. -/
def rows (types : List DataType) (limits : Limits) : List (List Value) :=
  if types.length ≤ limits.inputs then
    (List.range (rowCount types.length limits.rows)).map fun i => row types (wordBit i)
  else [row types fun _ => false, row types fun _ => true, row types (· % 2 == 0)]

/-- The table for the ports with the given indices. -/
def combinations (e : Entity) (ports : List Nat) (limits : Limits) (delay : Delay) :
    Combinations :=
  ⟨ports, rows (ports.filterMap fun i => (e.ports[i]?).map (·.type)) limits, delay⟩

/-! ### The plan of an entity -/

/-- The indices of the inputs of an entity that are neither the clock nor the reset and
whose type satisfies `p`. -/
def dataInputs (e : Entity) (roles : Roles) (p : DataType → Bool) : List Nat :=
  (e.ports.zipIdx.filter fun (port, i) =>
    port.mode.isInput && !roles.isControl i && p port.type).map (·.2)

/-- The plan for the data inputs of an entity. -/
def Plan.ofEntity (e : Entity) (roles : Roles) (limits : Limits) (delay : Delay) : Plan where
  combinations :=
    match dataInputs e roles DataType.isScalarBit with
    | [] => none
    | ports => some (Stimulus.combinations e ports limits delay)
  sequences :=
    (dataInputs e roles (!·.isScalarBit)).filterMap fun i =>
      (e.ports[i]?).map fun p => (i, sequence p delay)

end Testbench.Stimulus
