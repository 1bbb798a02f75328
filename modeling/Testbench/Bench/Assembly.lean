import Testbench.Bench.Process
import Testbench.Layout.Component

/-!
# Benches

`assemble` writes the bench of an entity for a given plan: an entity without ports, and an
architecture that declares constants for the generics, the component and signals for the
ports, instantiates the component, and holds the processes.  `generate` finds the clock
and the reset and makes the plan first.
-/

namespace Testbench.Bench

open Vhdl Stimulus Layout

/-- The name and version of the program, as written into every bench. -/
def generator : Text := "tbgen 0.1.0"

/-- The name of the bench of an entity. -/
def topName (e : Entity) (config : Config) : Text := e.name.text ++ config.bench.suffix

/-- The first port or generic with the name of the entity, up to case. -/
def findShared? (e : Entity) : Option Identifier :=
  e.interfaceNames.find? fun n => n.same e.name

/-- The lines before the architecture of a bench. -/
def preamble (e : Entity) (top : Text) : Text :=
  "-- Testbench for entity '" ++ e.name.text ++ "'.\n" ++
    "-- Generated by " ++ generator ++ ".\n\n" ++
    "library ieee;\nuse ieee.std_logic_1164.all;\nuse ieee.numeric_std.all;\n\n" ++
    "entity " ++ top ++ " is\nend entity " ++ top ++ ";\n\n"

/-- The declarations of the constants. -/
def constants (e : Entity) (config : Config) (style : Style) : Except Error Text := do
  let items ← e.generics.mapM fun g =>
    return (Item.ofGeneric g).withValue (some (← constantValue config g))
  return unlessEmpty items (declarationPart · "constant" style 1 ++ "\n")

/-- The declarations of the signals. -/
def signals (e : Entity) (style : Style) : Except Error Text := do
  let items ← e.ports.mapM fun p => return (Item.ofPort p).withValue (← initialValue p)
  return declarationPart items "signal" style 1

/-- The text that `write` makes of the port with an index, behind an empty line, or
nothing without an index. -/
def paragraph (e : Entity) (index : Option Nat) (write : Port → Except Error Text) :
    Except Error Text :=
  match index.bind (e.ports[·]?) with
  | some p => (write p).map ("\n" ++ ·)
  | none => .ok []

/-- The bench of an entity for a plan. -/
def assemble (e : Entity) (roles : Roles) (plan : Plan) (config : Config) :
    Except Error Text := do
  if let some n := findShared? e then
    throw (.sharedName n.text e.name.text)
  let style := config.style.merge Style.standard
  let settings := config.bench
  let top := topName e config
  let done := freshName e "tb_done"
  let label := freshName e settings.instanceName
  let constants ← constants e config style
  let signals ← signals e style
  let clock ← paragraph e roles.clock (clockProcess e style settings done)
  let reset ← paragraph e roles.reset (resetProcess e style settings roles.activeLow)
  let stimulus ← stimulusProcess e style roles plan done
  return preamble e top ++
    "architecture " ++ settings.architectureName ++ " of " ++ top ++ " is\n" ++
    constants ++ component e style 1 ++ "\n" ++ signals ++
    line style 1 ("signal " ++ done ++ " : boolean := false;") ++
    "begin\n\n" ++ instantiation e label style 1 ++ clock ++ reset ++ "\n" ++ stimulus ++
    "\nend architecture " ++ settings.architectureName ++ ";\n"

/-- The plan for the data inputs of an entity under a configuration. -/
def plan (e : Entity) (config : Config) : Plan :=
  Plan.ofEntity e (Roles.ofPorts e.ports) config.limits config.bench.settleDelay

/-- The bench of an entity under a configuration. -/
def generate (e : Entity) (config : Config) : Except Error Text :=
  assemble e (Roles.ofPorts e.ports) (plan e config) config

end Testbench.Bench
