import Testbench.Command.Program
import Testbench.Shell.Execution

/-!
# The command line

The system as a host of the program.  Simulators are executed by the shell of the library.
-/

namespace Testbench

/-- The fault that an error of the system tells. -/
def faultOfError : IO.Error → Fault
  | .noFileOrDirectory .. => .notFound
  | .permissionDenied .. => .denied
  | .alreadyExists .. => .alreadyThere
  | .inappropriateType .. => .isDirectory
  | e => .other (toString e).toList

/-- The result of an action, or its fault. -/
def attempt {α : Type} (action : IO α) : IO (Except Fault α) := do
  match ← action.toBaseIO with
  | .ok a => return .ok a
  | .error e => return .error (faultOfError e)

/-- The text of a file. -/
def textOfFile (path : Text) : IO (Except Fault Text) := do
  match ← attempt (IO.FS.readBinFile (String.ofList path)) with
  | .error f => return .error f
  | .ok bytes =>
    match String.fromUTF8? bytes with
    | some t => return .ok t.toList
    | none => return .error .notText

/-- The names in a directory. -/
def namesInDirectory (path : Text) : IO (List Text) := do
  let directory ← IO.FS.realPath (String.ofList path)
  return (← directory.readDir).toList.map fun e => e.fileName.toList

/-- The answer of the system to a question. -/
def answerOfSystem : {β : Type} → Question β → IO β
  | _, .currentDirectory => return (← IO.currentDir).toString.toList
  | _, .valueOf name => return (← IO.getEnv (String.ofList name)).map String.toList
  | _, .textAt path => textOfFile path
  | _, .namesAt path => attempt (namesInDirectory path)
  | _, .canonicalPath path =>
      attempt do return (← IO.FS.realPath (String.ofList path)).toString.toList

/-- Writes a file, which appears at its path only when it is complete. -/
def writeWhole (path contents : Text) : IO Unit := do
  let draft := String.ofList (path ++ ".part")
  IO.FS.createDirAll (String.ofList (Path.directory path))
  IO.FS.writeFile draft (String.ofList contents)
  IO.FS.rename draft (String.ofList path)

/-- Access to the files of the system. -/
def systemFiles : Files IO where
  look l := l.run answerOfSystem
  write path contents := attempt (writeWhole path contents)

/-- What the shell is given.  It makes no links in the system, and does not run the program
again. -/
def systemSetting : Shell.Setting IO where
  toFiles := systemFiles
  link _ _ := return .error .denied
  caller _ := return Shell.Tool.ended 126

/-- The system as a host. -/
def systemHost : Host IO where
  toFiles := systemFiles
  execute p := Shell.execute systemSetting Shell.depthLimit p
  print t := IO.print (String.ofList t)
  report t := IO.eprint (String.ofList t)

end Testbench

/-- Runs the program with the arguments of the command line. -/
def main (args : List String) : IO UInt32 := do
  return (← Testbench.runProgram Testbench.systemHost (args.map String.toList)).toUInt32
