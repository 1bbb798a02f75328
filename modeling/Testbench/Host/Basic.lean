import Testbench.Host.Look
import Testbench.Simulation.Environment

/-!
# Hosts

A `Host` is where the program runs: it answers questions, writes files, executes other
programs, and shows what the program prints.  The effects of a host are those of a monad.

Whatever is printed is shown.  An output stream that has been closed, at which the program would
stop on the spot, also behind files that it has written, is left out.
-/

namespace Testbench

/-- A program that is to be executed in a directory, with its arguments and with
variables besides those of the environment. -/
structure Process where
  program : Text
  args : List Text
  directory : Text
  env : List Variable
  deriving DecidableEq

/-- What a program has printed, and the code with which it has ended, unless it has been
stopped by a signal. -/
structure Report where
  output : Text
  errors : Text
  code : Option Int
  deriving DecidableEq

/-- Access to files.  A file that is written has its directory made if need be. -/
structure Files (m : Type → Type) where
  look : {α : Type} → Look α → m α
  write : (path contents : Text) → m (Except Fault Unit)

/-- A place where the program runs. -/
structure Host (m : Type → Type) extends Files m where
  execute : Process → m (Except Fault Report)
  print : Text → m Unit
  report : Text → m Unit

end Testbench
