import Testbench.Command.Task
import Testbench.Host.Basic
import Testbench.Simulation.Environment

/-!
# The program

`Task.perform` performs a task in a host, and `runProgram` runs the program with the
arguments of a command line: it reads the command line, prepares the task, performs it,
and gives the code with which the program ends.
-/

namespace Testbench

variable {m : Type → Type} [Monad m]

/-- A part of the performance of a task, which may fail. -/
abbrev Performance (m : Type → Type) := ExceptT Failure m

namespace Performance

/-- The result of looking at files. -/
def look {α : Type} (host : Host m) (l : Look α) : Performance m α :=
  ExceptT.lift (host.look l)

/-! ### Writing -/

/-- Shows a notice. -/
def tell (host : Host m) (d : Display) (n : Notice) : Performance m Unit :=
  host.report (d.notice n)

/-- Writes files one after the other. -/
def save (host : Host m) (d : Display) : List (Text × Text) → Performance m Unit
  | [] => return
  | (path, t) :: r => do
    match ← host.write path t with
    | .error f => throw (.unreadable none f.message)
    | .ok () => do
        tell host d (.info ("wrote " ++ path.quoted))
        save host d r

/-! ### Simulation -/

/-- The variables for a simulation in a directory, and the notices of the variables that
are left out and, if `verbose` holds, of those that are not. -/
def environment (s : Simulation) (directory : Text) (verbose : Bool) :
    List Variable × List Notice :=
  let bench := Path.join directory (s.top ++ ".vhd")
  let (e, ignored) :=
    (Environment.empty.describe s.entity s.top bench directory).addAll s.env
  let warnings := ignored.map fun name =>
    Notice.warning ("ignoring [env] entry " ++ name.quoted ++ "; the name is reserved")
  (e.toList,
    warnings ++ if verbose then e.toList.map fun v => .info v.shown else [])

/-- An argument of the simulator: a path in the directory of the program is made
absolute, because the simulator runs in another one. -/
def absoluteArgument (root t : Text) : Look Text := do
  let path := Path.join root t
  return if !Path.isAbsolute t && (← Look.isThere path) then path else t

/-- The process of a simulation in a directory. -/
def process (s : Simulator) (directory : Text) (env : List Variable) : Look Process := do
  let root ← Look.currentDirectory
  return ⟨← absoluteArgument root s.command, ← s.args.mapM (absoluteArgument root), directory,
    env⟩

/-- The line that tells how a simulator has ended. -/
def ending (colored : Bool) : Option Int → Text
  | some 0 => Color.green.paint colored "info" ++ ": exit code 0\n"
  | some n => Color.yellow.paint colored "info" ++ ": exit code " ++ Text.ofInt n ++ "\n"
  | none => Color.yellow.paint colored "info" ++ ": no exit code (terminated by signal)\n"

/-- The failure of a simulator that has ended in some way, if it is one. -/
def failure? : Option Int → Option Failure
  | some 0 => none
  | some n => some (.exitCode n)
  | none => some .terminated

/-- Executes the simulator and shows what it has printed. -/
def execute (host : Host m) (d : Display) (p : Process) : Performance m Unit := do
  tell host d (.info ("running: " ++ commandLine p.program p.args))
  match ← host.execute p with
  | .error f => throw (.simulatorFailed f.message .simulatorConfig)
  | .ok r => do
      host.print r.output
      host.report r.errors
      host.print (ending d.colored r.code)
      match failure? r.code with
      | some f => throw f
      | none => return

/-- Writes the files of a simulation and simulates the bench. -/
def simulation (host : Host m) (d : Display) (verbose : Bool) (s : Simulation) :
    Performance m Unit := do
  save host d (s.files.map fun (name, t) => (Path.join s.directory name, t))
  match ← look host (Look.canonicalPath s.directory) with
  | .error f => throw (.unreadable none f.message)
  | .ok directory => do
      let (env, notices) := environment s directory verbose
      host.report (d.notices notices)
      execute host d (← look host (process s.simulator directory env))

end Performance

/-- Performs a task. -/
def Task.perform (host : Host m) (d : Display) (verbose : Bool) : Task → Performance m Unit
  | .print t => host.print t
  | .save files listed => do
      Performance.save host d files
      if listed then host.print (files.flatMap fun (path, _) => path ++ "\n")
  | .simulate s => Performance.simulation host d verbose s

/-! ### Running -/

/-- The code of the program when it has failed. -/
def failureCode : Nat := 101

/-- A failure as it is shown. -/
def Display.failure (d : Display) (f : Failure) : Text :=
  "error: " ++
    match f.message d.colored with
    | [] => ['\n']
    | c :: r => c.toLower :: r ++ "\n"

/-- Prepares the task of an invocation and performs it. -/
def Invocation.attempt (host : Host m) (i : Invocation) (d : Display) : Performance m Unit := do
  let (prepared, notices) ← Performance.look host (i.prepare.run [])
  host.report (d.notices notices)
  match prepared with
  | .error f => throw f
  | .ok task => task.perform host d i.verbose

/-- Carries out an invocation, and gives the code with which the program ends. -/
def Invocation.carryOut (host : Host m) (i : Invocation) : m Nat := do
  let d ← host.look (Display.choose i.color i.verbose)
  match ← (i.attempt host d).run with
  | .ok () => return 0
  | .error f => do
      host.report (d.failure f)
      return failureCode

/-- Runs the program with given arguments, and gives the code with which it ends. -/
def runProgram (host : Host m) (args : List Text) : m Nat := do
  match Invocation.ofArguments args with
  | .ok i => i.carryOut host
  | .error (.help topic) => do
      host.print (topic.help ++ "\n")
      return 0
  | .error .usage => do
      host.report "error: the command line is not valid\n"
      return failureCode

end Testbench
