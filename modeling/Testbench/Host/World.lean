import Testbench.Command.Program
import Testbench.Host.Tree
import Testbench.Shell.Execution

/-!
# Worlds

A `World` is a host in which everything is a value: its files are a tree, and what is
printed is a text.  A question leaves the world as it is, so that a computation that only
looks has its result in the world and no effect on it.

In `World.hostWith` the programs that are executed have any given behaviour; in `World.host` it
is that of the shells and their tools, whose scripts can run the program itself again.
-/

namespace Testbench

/-- Files, the current directory, variables, and what has been printed. -/
structure World where
  tree : Tree
  here : Location
  env : List Variable
  output : Text
  errors : Text
  deriving DecidableEq

namespace World

/-- The answer to a question. -/
def answer (w : World) : {β : Type} → Question β → β
  | _, .currentDirectory => Tree.absolutePath w.here
  | _, .valueOf name => (w.env.find? fun v => v.name = name).map (·.value)
  | _, .textAt path => w.tree.text w.here path
  | _, .namesAt path => w.tree.names w.here path
  | _, .canonicalPath path => w.tree.path w.here path

/-- The result of a computation that looks at a world. -/
def see {α : Type} (w : World) : Look α → α
  | .done a => a
  | .ask q next => w.see (next (w.answer q))

@[simp]
theorem see_pure {α : Type} (w : World) (a : α) :
  w.see (pure a) = a
  := rfl

@[simp]
theorem see_bind {α β : Type} (w : World) (l : Look α) (f : α → Look β) :
  w.see (l >>= f) = w.see (f (w.see l))
  := by
  induction l with
  | done a => rfl
  | ask q next ih => exact ih (w.answer q)

/-- The fault of writing a file into a world, if there is one, and the world with the
file. -/
def write (w : World) (path contents : Text) : Except Fault Unit × World :=
  match w.tree.write w.here path contents with
  | .ok tree => (.ok (), { w with tree })
  | .error f => (.error f, w)

/-- Access to the files of a world. -/
def files : Files (StateM World) where
  look l := fun w => (w.see l, w)
  write path contents := fun w => w.write path contents

/-- Worlds as hosts, where the programs that are executed have a given behaviour. -/
def hostWith (b : Process → StateM World (Except Fault Report)) : Host (StateM World) where
  toFiles := files
  execute := b
  print t := modify fun w => { w with output := w.output ++ t }
  report t := modify fun w => { w with errors := w.errors ++ t }

/-! ### Shells -/

/-- The fault of making a link in a world, if there is one, and the world with the link. -/
def link (w : World) (path target : Text) : Except Fault Unit × World :=
  match w.tree.link w.here path target with
  | .ok tree => (.ok (), { w with tree })
  | .error f => (.error f, w)

/-- The report on a process in which the program is run in a host, and the world behind it.
Only the files are those of the caller. -/
def runAgain (host : Host (StateM World)) (p : Process) (w : World) : Report × World :=
  let here := (w.tree.locate w.here p.directory).toOption.getD w.here
  let (code, after) := runProgram host p.args ⟨w.tree, here, p.env ++ w.env, [], []⟩
  (⟨after.output, after.errors, some code⟩, { w with tree := after.tree })

/-- The behaviour that the shells give to programs, if the program is run again at most `depth`
times inside of itself. -/
def programs : Nat → Process → StateM World (Except Fault Report)
  | 0, _ => return .error (.other "Resource temporarily unavailable")
  | depth + 1, p =>
    let setting : Shell.Setting (StateM World) := {
      toFiles := files
      link := fun path target w => w.link path target
      caller := runAgain (hostWith (programs depth)) }
    Shell.execute setting Shell.depthLimit p

/-- Worlds as hosts.  The programs in a world are those of the shells. -/
def host : Host (StateM World) := hostWith (programs Shell.depthLimit)

end World

end Testbench
