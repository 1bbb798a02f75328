import Testbench.Shell.Statement
import Testbench.Shell.Tool

/-!
# Sessions of a shell

A `Session` is what a shell knows while it carries out a script: the current directory,
the variables, the arguments of the script, and what has been printed.  `fields` expands a
word into the arguments that it stands for: parameters are replaced by their values,
which fall into fields at blanks unless they are quoted, and a field with a wildcard
stands for the names that it matches.  Sessions only serve to run the program in a world; no
result rests on them.
-/

namespace Testbench.Shell

/-- A shell, which is known by its name. -/
inductive Dialect where
  | sh
  | bash
  deriving DecidableEq

/-- What a shell knows while it carries out a script.  The first argument is the name of
the script, and `ended` holds the code with which the script has ended, if it has. -/
structure Session where
  dialect : Dialect
  directory : Text
  vars : List Variable
  exported : List Text
  args : List Text
  status : Int
  output : Text
  errors : Text
  ended : Option (Option Int)
  deriving DecidableEq

namespace Session

/-- The number that stands for the process of the shell. -/
def processNumber : Text := "1000"

/-- The number that stands for the process that has called the shell. -/
def callerNumber : Text := "999"

/-- The session in which a variable has a value. -/
def assign (s : Session) (name value : Text) : Session :=
  { s with vars := ⟨name, value⟩ :: s.vars.filter fun v => v.name != name }

/-- The variables that programs called by the script are given. -/
def passed (s : Session) : List Variable :=
  s.vars.filter fun v => s.exported.contains v.name

/-! ### Parameters -/

/-- The values of a parameter. -/
def values (s : Session) (name : Text) : Look (List Text) := do
  if name = "@" then return s.args.tail
  if name = "*" then return [Text.join " " s.args.tail]
  if name = "#" then return [Text.ofNat s.args.tail.length]
  if name = "?" then return [Text.ofInt s.status]
  if name = "$" then return [processNumber]
  if name = "PPID" then return [callerNumber]
  match name with
  | [c] =>
      if c.isDigit then return [s.args.getD (c.toNat - '0'.toNat) []]
  | _ => pure ()
  if name = "PWD" then return [s.directory]
  match s.vars.find? fun v => v.name = name with
  | some v => return [v.value]
  | none => return [(← Look.valueOf name).getD []]

/-- The characters that a piece of a word stands for, and whether each is active: an
active blank separates fields, and an active wildcard matches names. -/
def characters (s : Session) : Piece → Look (List (Char × Bool))
  | .char quoted c => return [(c, !quoted)]
  | .empty => return []
  | .parameter quoted name => do
      let values ← s.values name
      return ((values.map fun v => v.map fun c => (c, !quoted)).intersperse
        [(' ', true)]).flatten

/-- The characters that a word stands for. -/
def allCharacters (s : Session) : Word → Look (List (Char × Bool))
  | [] => return []
  | p :: r => return (← s.characters p) ++ (← s.allCharacters r)

/-- The text that a word stands for as a whole. -/
def value (s : Session) (w : Word) : Look Text := return (← s.allCharacters w).map (·.1)

/-! ### Fields -/

/-- Whether a character separates fields. -/
def separates : Char × Bool → Bool
  | (c, active) => active && (c == ' ' || c == '\t' || c == '\n')

/-- The runs of characters between those that separate fields. -/
def runs : List (Char × Bool) → List (List (Char × Bool))
  | [] => [[]]
  | c :: r =>
      if separates c then [] :: runs r
      else
        match runs r with
        | [] => [[c]]
        | f :: more => (c :: f) :: more

/-- Whether a pattern matches a name.  An active `*` matches any characters, and an active
`?` matches one. -/
def matchesName : List (Char × Bool) → Text → Bool
  | [], t => t.isEmpty
  | (c, active) :: p, t =>
      if active && c == '*' then
        (List.range (t.length + 1)).any fun n => matchesName p (t.drop n)
      else
        match t with
        | [] => false
        | d :: r => ((active && c == '?') || c == d) && matchesName p r

/-- Whether a field has a wildcard. -/
def isPattern (f : List (Char × Bool)) : Bool := f.contains ('*', true) || f.contains ('?', true)

/-- The texts that a field stands for: the paths that it matches in its directory, if it
has a wildcard and there are any. -/
def paths (s : Session) (f : List (Char × Bool)) : Look (List Text) := do
  let written := f.map (·.1)
  if !isPattern f then return [written]
  let reversed := f.reverse
  let pattern := (reversed.takeWhile fun (c, _) => c != '/').reverse
  let before := ((reversed.dropWhile fun (c, _) => c != '/').reverse).map (·.1)
  match ← Look.namesAt (Path.join s.directory (if before = [] then "." else before)) with
  | .error _ => return [written]
  | .ok names =>
      let hidden := pattern.head?.map (·.1) == some '.'
      let found := names.filter fun n =>
        matchesName pattern n && (hidden || n.head? != some '.')
      if found = [] then return [written]
      return (found.mergeSort fun a b => !decide (b < a)).map (before ++ ·)

/-- The arguments that a word stands for. -/
def fields (s : Session) (w : Word) : Look (List Text) := do
  let found := (runs (← s.allCharacters w)).filter (· != [])
  if found = [] && w.contains .empty then return [[]]
  return (← found.mapM s.paths).flatten

/-- The arguments that words stand for. -/
def allFields (s : Session) : List Word → Look (List Text)
  | [] => return []
  | w :: r => return (← s.fields w) ++ (← s.allFields r)

end Session

end Testbench.Shell
