import Testbench.Vhdl.Port

/-!
# Clock and reset

A bench drives two ports in a way of their own: the clock and the reset.  `Roles.ofPorts`
finds them by their names among the inputs that are single bits or truth values, and
tells from the name of the reset at which level it is active.
-/

namespace Testbench.Stimulus

open Vhdl

/-- Which ports are the clock and the reset, given by their indices, and whether the
reset is active at the low level. -/
structure Roles where
  clock : Option Nat
  reset : Option Nat
  activeLow : Bool
  deriving DecidableEq

namespace Roles

/-- No port is a clock or a reset. -/
def none : Roles := ⟨Option.none, Option.none, false⟩

/-- Whether the port with an index is the clock or the reset. -/
def isControl (r : Roles) (index : Nat) : Bool :=
  r.clock == some index || r.reset == some index

/-- Whether `part` occurs in a text. -/
def occursIn (part : Text) : Text → Bool
  | [] => part.isEmpty
  | c :: r => part.isPrefixOf (c :: r) || occursIn part r

/-- Whether a port can be a clock or a reset. -/
def canControl (p : Port) : Bool := p.mode.isInput && p.type.isScalarBit

/-- Whether a port is named like a clock. -/
def namesClock (p : Port) : Bool :=
  List.isPrefixOf ("clk" : Text) p.name.key || List.isPrefixOf ("clock" : Text) p.name.key

/-- Whether a port is named like a reset. -/
def namesReset (p : Port) : Bool := occursIn "rst" p.name.key || occursIn "reset" p.name.key

/-- Whether a port is named like a signal that is active at the low level. -/
def namesActiveLow (p : Port) : Bool :=
  List.isSuffixOf ("_n" : Text) p.name.key || List.isSuffixOf ("rstn" : Text) p.name.key ||
    List.isSuffixOf ("resetn" : Text) p.name.key

/-- The index of the clock: the first port that can be one and is named like one. -/
def findClock? (ports : List Port) : Option Nat :=
  ports.findIdx? fun p => canControl p && namesClock p

/-- The index of the reset: the first port other than the clock that can be one and is
named like one. -/
def findReset? (ports : List Port) (clock : Option Nat) : Option Nat :=
  ports.zipIdx.findIdx? fun (p, i) => clock != some i && canControl p && namesReset p

/-- The clock and the reset among the ports of an entity. -/
def ofPorts (ports : List Port) : Roles :=
  let clock := findClock? ports
  let reset := findReset? ports clock
  ⟨clock, reset, (reset.bind (ports[·]?)).any namesActiveLow⟩

end Roles

end Testbench.Stimulus
