import Testbench.Layout.Style
import Testbench.Stimulus.Plan
import Testbench.Text.Dictionary

/-!
# Configurations

A `Config` says how benches are named and timed, how many combinations of inputs they
try, how they are set, which values the generics have, and which program simulates them
in which environment.  Without further settings every part has its default.
-/

namespace Testbench

open Layout Stimulus

/-- The names and times of a bench. -/
structure Bench.Settings where
  clockHalfPeriod : Delay := 5
  settleDelay : Delay := 10
  resetDuration : Delay := 20
  instanceName : Text := "uut"
  architectureName : Text := "sim"
  suffix : Text := "_tb"
  /-- A clock that never waits would not let time pass. -/
  clockHalfPeriod_pos : 0 < clockHalfPeriod := by decide
  deriving DecidableEq

/-- The program that simulates benches, and its arguments. -/
structure Simulator where
  command : Text := "bash"
  args : List Text := ["scripts/run_simulation.sh"]
  deriving DecidableEq

/-- A command and its quoted arguments on one line. -/
def commandLine (command : Text) (args : List Text) : Text :=
  command ++ " " ++ Text.trimEnd (args.flatMap fun a => ['"'] ++ a ++ ['"', ' '])

/-- A simulator as it is called. -/
def Simulator.text (s : Simulator) : Text := commandLine s.command s.args

/-- The settings of the program. -/
structure Config where
  bench : Bench.Settings := {}
  limits : Limits := ⟨8, 16⟩
  style : Style := Style.unset
  generics : Dictionary := .empty
  simulator : Simulator := {}
  env : Option Dictionary := none
  deriving DecidableEq

/-- The configuration in which every setting has its default. -/
def Config.standard : Config := {}

/-- The value that a configuration gives to a generic, in whatever case its name is
written; of several the one with the least key counts. -/
def Config.generic? (c : Config) (name : Text) : Option Text :=
  (c.generics.entries.find? fun (key, _) => key.sameWord name).map (·.2)

end Testbench
