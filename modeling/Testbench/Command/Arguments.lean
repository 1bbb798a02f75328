import Testbench.Command.Failure
import Testbench.Command.Help
import Testbench.Text.Case

/-!
# Command lines

`Invocation.ofArguments` reads the arguments of the program.  An option may stand
anywhere; its value follows behind `=`, or as the next argument if this is a plain one.
The global options are taken first, then the command, then the options and the files of
the command; an argument that is left over at the end is an error.  Whoever asks for help
gets it in place of any error, for the command that has been reached.
-/

namespace Testbench

/-- When output is colored. -/
inductive ColorMode where
  | auto
  | always
  | never
  deriving DecidableEq

/-- The mode with a name, in any case. -/
def ColorMode.ofName? (t : Text) : Option ColorMode :=
  [(("auto" : Text), auto), ("always", always), ("never", never)].lookup t.lower

/-- A command of the program, with its options and files. -/
inductive Command where
  | parse (file : Text) (output : Option Text)
  | generate (file : Text) (directory : Option Text) (record makefile : Bool)
  | run (file : Text) (directory command : Option Text)
  | check (file bench : Text)
  deriving DecidableEq

/-- What the program is asked to do. -/
structure Invocation where
  version : Bool
  verbose : Bool
  color : Option ColorMode
  config : Option Text
  command : Option Command
  deriving DecidableEq

/-- Why a command line is not carried out: help is asked for, or it is wrong. -/
inductive Refusal where
  | help (topic : Topic)
  | usage
  deriving DecidableEq

namespace Invocation

/-! ### Arguments -/

/-- A part of a command line: the long or the short name of an option, the value that is
attached to an option, a plain argument with its place among the arguments, or one that
can be none of these. -/
inductive Argument where
  | long (name : Text)
  | short (name : Char)
  | attached (value : Text)
  | plain (place : Nat) (t : Text)
  | other
  deriving DecidableEq

/-- The value that is attached to an option behind its first `=`, if there is one. -/
def attachedPart (t : Text) : List Argument :=
  match t.dropWhile (· != '=') with
  | [] => []
  | _ :: value => [.attached value]

/-- The part of an option before its first `=`. -/
def namePart (t : Text) : Text := t.takeWhile (· != '=')

/-- The parts of the argument at a place. -/
def scanOne (place : Nat) : Text → List Argument
  | '-' :: '-' :: r => .long (namePart r) :: attachedPart r
  | ['-'] => [.other]
  | '-' :: r => (namePart r).map .short ++ attachedPart r
  | t => [.plain place t]

/-- The parts of the arguments from a place on; behind a lone `--` there are no options. -/
def scan (place : Nat) : List Text → List Argument
  | [] => []
  | ['-', '-'] :: r => .other :: r.map fun _ => .other
  | t :: r => scanOne place t ++ scan (place + 1) r

/-- The arguments that have not been taken yet, each in its place, and what is known of a
wish for help. -/
structure State where
  left : List (Option Argument)
  helping : Bool
  topic : Topic

/-- A step in the reading of a command line. -/
abbrev Reading (α : Type) := StateT State (Except Refusal) α

/-- Stops, with help if it is asked for. -/
def refuse {α : Type} : Reading α := fun s =>
  .error (if s.helping then .help s.topic else .usage)

/-- Whether an argument is an option with a long name or a short one. -/
def isOption (name : Text) (short : Option Char) : Option Argument → Bool
  | some (.long n) => n == name
  | some (.short c) => short == some c
  | _ => false

/-- The value that an argument is for the option in front of it, if it can be one.  A
plain argument is a value only if `takesPlain` holds. -/
def valueOf? (takesPlain : Bool) : Option Argument → Option Text
  | some (.attached v) => some v
  | some (.plain _ v) => if takesPlain then some v else none
  | _ => none

/-- The values of an option, one for each time it is given, and the arguments left
without them. -/
def takeOption (name : Text) (short : Option Char) (takesPlain : Bool) :
    List (Option Argument) → List (Option Text) × List (Option Argument)
  | [] => ([], [])
  | [a] => if isOption name short a then ([none], [none]) else ([], [a])
  | a :: b :: r =>
      if isOption name short a then
        match valueOf? takesPlain b with
        | some v =>
            let (values, left) := takeOption name short takesPlain r
            (some v :: values, none :: none :: left)
        | none =>
            let (values, left) := takeOption name short takesPlain (b :: r)
            (none :: values, none :: left)
      else
        let (values, left) := takeOption name short takesPlain (b :: r)
        (values, a :: left)

/-- The values of an option, which is taken out of the arguments. -/
def values (name : Text) (short : Option Char) (takesPlain : Bool) :
    Reading (List (Option Text)) :=
  modifyGet fun s =>
    let (values, left) := takeOption name short takesPlain s.left
    (values, { s with left })

/-- Whether an option without a value is given. -/
def flag (name : Text) (short : Option Char) : Reading Bool := do
  match ← values name short false with
  | [] => return false
  | [none] => return true
  | _ => refuse

/-- The value of an option, if it is given. -/
def option (name : Text) (short : Option Char) : Reading (Option Text) := do
  match ← values name short true with
  | [] => return none
  | [some v] => return some v
  | _ => refuse

/-- Takes the first plain argument, if there is one, and returns it with its place. -/
def takePlain? : List (Option Argument) → Option (Nat × Text × List (Option Argument))
  | [] => none
  | some (.plain place t) :: r => some (place, t, none :: r)
  | a :: r => (takePlain? r).map fun (place, t, left) => (place, t, a :: left)

/-- The next plain argument, which must be there. -/
def positional : Reading Text := do
  match takePlain? (← get).left with
  | some (_, t, left) =>
      modify fun s => { s with left }
      return t
  | none => refuse

/-- Makes a topic the one for which help is given. -/
def setTopic (topic : Topic) : Reading Unit := modify fun s => { s with topic }

/-! ### Commands -/

/-- Whether an argument has not been taken and is an option. -/
def isOpenOption : Option Argument → Bool
  | some (.long _) => true
  | some (.short _) => true
  | _ => false

/-- The options and files of `parse`. -/
def readParse : Reading Command := do
  setTopic .parse
  let output ← option "output" (some 'o')
  return .parse (← positional) output

/-- The options and files of `generate`. -/
def readGenerate : Reading Command := do
  setTopic .generate
  let record ← flag "json" none
  let makefile ← flag "makefile" none
  let directory ← option "out-dir" none
  return .generate (← positional) directory record makefile

/-- The options and files of `run`. -/
def readRun : Reading Command := do
  setTopic .run
  let directory ← option "out-dir" none
  let command ← option "command" none
  return .run (← positional) directory command

/-- The files of `check`. -/
def readCheck : Reading Command := do
  setTopic .check
  let file ← positional
  return .check file (← positional)

/-- The reading of the command with a name. -/
def readCommand? (name : Text) : Option (Reading Command) :=
  [(("parse" : Text), readParse), ("generate", readGenerate), ("run", readRun),
    ("check", readCheck)].lookup name

/-- The command, if there is a plain argument that names one.  An option that the program
does not know is refused if fewer parts are in front of it than there are arguments in
front of the command. -/
def command? : Reading (Option Command) := do
  match takePlain? (← get).left with
  | none => return none
  | some (place, name, left) =>
    modify fun s => { s with left }
    match readCommand? name with
    | none => refuse
    | some read => if (left.take place).any isOpenOption then refuse else return some (← read)

/-- The mode of coloring. -/
def colorMode : Reading (Option ColorMode) := do
  match ← option "color" none with
  | none => return none
  | some t =>
    match ColorMode.ofName? t with
    | some m => return some m
    | none => refuse

/-- Whether help is asked for.  Asking for it twice is an error, in place of which there is
help for the program. -/
def askForHelp : Reading Unit := do
  let given ← values "help" (some 'h') false
  if given.any Option.isSome then refuse
  modify fun s => { s with helping := given != [] }
  if given.length > 1 then refuse

/-- Reads a whole command line. -/
def read : Reading Invocation := do
  askForHelp
  let version ← flag "version" none
  let verbose ← flag "verbose" (some 'v')
  let color ← colorMode
  let config ← option "config" none
  let command ← command?
  if (← get).helping || (← get).left.any Option.isSome then refuse
  return ⟨version, verbose, color, config, command⟩

/-- What the arguments ask the program to do. -/
def ofArguments (args : List Text) : Except Refusal Invocation :=
  read.run' ⟨(scan 0 args).map some, false, .program⟩

end Invocation

end Testbench
