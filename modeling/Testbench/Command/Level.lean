import Testbench.Text.Case

/-!
# Levels of detail

How much a command reports of what it does.  A level named in the environment counts
before the wish for a verbose report.
-/

namespace Testbench

/-- A level of detail, each of which includes those before it. -/
inductive Level where
  | off
  | error
  | warn
  | info
  | debug
  | trace
  deriving DecidableEq

namespace Level

/-- The levels from the least detailed on. -/
def all : List Level := [off, error, warn, info, debug, trace]

/-- The name of a level. -/
def name : Level → Text
  | off => "OFF"
  | error => "ERROR"
  | warn => "WARN"
  | info => "INFO"
  | debug => "DEBUG"
  | trace => "TRACE"

/-- The place of a level, from the least detailed on. -/
def rank : Level → Nat
  | off => 0
  | error => 1
  | warn => 2
  | info => 3
  | debug => 4
  | trace => 5

/-- The level with a name, in any case. -/
def ofName? (t : Text) : Option Level := all.find? fun l => l.name.sameWord t

/-- Whether messages of the level `l` are reported at a level. -/
def reports (level l : Level) : Bool := l.rank ≤ level.rank

/-- The level that is chosen by a wish for a verbose report and by a name in the
environment. -/
def choose (verbose : Bool) (named : Option Text) : Level :=
  match named.bind ofName? with
  | some l => l
  | none => if verbose then info else warn

end Level

end Testbench
