import Testbench.Command.Failure
import Testbench.Command.Level
import Testbench.Command.Arguments
import Testbench.Host.Look

/-!
# Notices

What a command reports of its work while it goes on: warnings, and information for those
who ask for a detailed report.
-/

namespace Testbench

/-- A remark about what a command does. -/
inductive Notice where
  | warning (message : Text)
  | info (message : Text)
  deriving DecidableEq

/-- How messages are shown. -/
structure Display where
  colored : Bool
  level : Level
  deriving DecidableEq

namespace Display

/-- Whether output is colored, given the values of the variables that turn coloring off
and on. -/
def isColored (mode : ColorMode) (off on : Option Text) : Bool :=
  match mode with
  | .always => true
  | .never => false
  | .auto => off.isNone && on.any (· != ['0'])

/-- The display that is chosen on a command line and by the environment. -/
def choose (color : Option ColorMode) (verbose : Bool) : Look Display := do
  let off ← Look.valueOf "NO_COLOR"
  let on ← Look.valueOf "CLICOLOR_FORCE"
  let level ← Look.valueOf "TBGEN_LOG"
  return ⟨isColored (color.getD .auto) off on, Level.choose verbose level⟩

/-- A notice as it is shown. -/
def notice (d : Display) : Notice → Text
  | .warning message =>
      if d.level.reports .warn then
        Color.boldYellow.paint d.colored "warning" ++ ": " ++ message ++ "\n"
      else []
  | .info message =>
      if d.level.reports .info then
        Color.green.paint d.colored "info" ++ ": " ++ message ++ "\n"
      else []

/-- Notices as they are shown. -/
def notices (d : Display) (notices : List Notice) : Text := notices.flatMap d.notice

end Display

end Testbench
