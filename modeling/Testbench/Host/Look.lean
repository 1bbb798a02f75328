import Testbench.Text.Basic

/-!
# Looking at files

A `Look` is a computation that asks questions about the current directory, the variables
of the environment, and the files.  It has no way to change any of these: whoever answers
its questions, its result is the only trace that it leaves.
-/

namespace Testbench

/-- Why a file or a program cannot be used. -/
inductive Fault where
  | notFound
  | denied
  | alreadyThere
  | notDirectory
  | isDirectory
  | tooManyLinks
  | notText
  | other (reason : Text)
  deriving DecidableEq

namespace Fault

/-- The wording of a fault. -/
def reason : Fault → Text
  | notFound => "No such file or directory"
  | denied => "Permission denied"
  | alreadyThere => "File exists"
  | notDirectory => "Not a directory"
  | isDirectory => "Is a directory"
  | tooManyLinks => "Too many levels of symbolic links"
  | notText => "stream did not contain valid UTF-8"
  | other reason => reason

/-- The number of a fault, if the system gives it one. -/
def number? : Fault → Option Nat
  | notFound => some 2
  | denied => some 13
  | alreadyThere => some 17
  | notDirectory => some 20
  | isDirectory => some 21
  | tooManyLinks => some 40
  | notText => none
  | other _ => none

/-- The wording of a fault with its number. -/
def message (f : Fault) : Text :=
  match f.number? with
  | some n => f.reason ++ " (os error " ++ Text.ofNat n ++ ")"
  | none => f.reason

end Fault

/-- A question with the type of its answers: the current directory, the value of a
variable, the text of a file, the names in a directory, or the path from the root to what
is at a path. -/
inductive Question : Type → Type where
  | currentDirectory : Question Text
  | valueOf (name : Text) : Question (Option Text)
  | textAt (path : Text) : Question (Except Fault Text)
  | namesAt (path : Text) : Question (Except Fault (List Text))
  | canonicalPath (path : Text) : Question (Except Fault Text)

/-- A computation that only asks questions. -/
inductive Look (α : Type) : Type 1 where
  | done (a : α)
  | ask {β : Type} (q : Question β) (next : β → Look α)

namespace Look

/-- Continues a computation with its result. -/
def bind {α β : Type} (l : Look α) (f : α → Look β) : Look β :=
  match l with
  | done a => f a
  | ask q next => ask q fun b => (next b).bind f

instance : Monad Look where
  pure := done
  bind := bind

@[simp]
theorem bind_done {α : Type} (l : Look α) :
  l.bind done = l
  := by
  induction l with
  | done a => rfl
  | ask q next ih => exact congrArg (ask q) (funext ih)

theorem bind_assoc {α β γ : Type} (l : Look α) (f : α → Look β) (g : β → Look γ) :
  (l.bind f).bind g = l.bind fun a => (f a).bind g
  := by
  induction l with
  | done a => rfl
  | ask q next ih => exact congrArg (ask q) (funext ih)

instance : LawfulMonad Look := LawfulMonad.mk' Look bind_done (fun _ _ => rfl) bind_assoc

/-- The result of a computation whose questions are answered by `answer`. -/
def run {m : Type → Type} [Monad m] (answer : {β : Type} → Question β → m β) {α : Type} :
    Look α → m α
  | done a => pure a
  | ask q next => do (next (← answer q)).run answer

/-- The current directory. -/
def currentDirectory : Look Text := ask .currentDirectory done

/-- The value of a variable. -/
def valueOf (name : Text) : Look (Option Text) := ask (.valueOf name) done

/-- The text of the file at a path. -/
def textAt (path : Text) : Look (Except Fault Text) := ask (.textAt path) done

/-- The names in the directory at a path. -/
def namesAt (path : Text) : Look (Except Fault (List Text)) := ask (.namesAt path) done

/-- The path from the root to what is at a path. -/
def canonicalPath (path : Text) : Look (Except Fault Text) := ask (.canonicalPath path) done

/-- Whether there is a file at a path. -/
def isFile (path : Text) : Look Bool :=
  ask (.textAt path) fun
    | .ok _ => done true
    | .error f => done (f = .notText)

/-- Whether there is a directory at a path. -/
def isDirectory (path : Text) : Look Bool := ask (.namesAt path) fun r => done r.isOk

/-- Whether there is anything at a path. -/
def isThere (path : Text) : Look Bool := ask (.canonicalPath path) fun r => done r.isOk

end Look

end Testbench
