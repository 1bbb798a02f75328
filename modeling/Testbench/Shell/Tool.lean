import Testbench.Command.Path
import Testbench.Host.Basic

/-!
# Tools

The tools are the small programs that scripts call: those that print their arguments, the
current directory, files or the names in directories, and those that only succeed, fail or
test a condition.  They look at files and change none.  Like the shells they only serve to run
the program in a world; no result rests on them.
-/

namespace Testbench.Shell

/-- A program that only looks at files. -/
inductive Tool where
  | echo
  | pwd
  | cat
  | ls
  | true
  | false
  | test
  deriving DecidableEq

namespace Tool

/-- The report of a tool that has only printed something. -/
def printed (t : Text) : Report := ⟨t, [], some 0⟩

/-- The report of a tool that has only ended with a code. -/
def ended (code : Int) : Report := ⟨[], [], some code⟩

/-- The reports of two calls as one. -/
def both (a b : Report) : Report :=
  ⟨a.output ++ b.output, a.errors ++ b.errors, if b.code = some 0 then a.code else b.code⟩

/-! ### Printing -/

/-- The text that escapes stand for. -/
def unescape : Text → Text
  | '\\' :: 'n' :: r => '\n' :: unescape r
  | '\\' :: 't' :: r => '\t' :: unescape r
  | '\\' :: 'r' :: r => '\r' :: unescape r
  | '\\' :: '\\' :: r => '\\' :: unescape r
  | c :: r => c :: unescape r
  | [] => []

/-- Prints arguments, whose escapes may count. -/
def runEcho (escapes : Bool) (args : List Text) : Report :=
  let (args, ending) :=
    match args with
    | ['-', 'n'] :: r => (r, ([] : Text))
    | r => (r, ['\n'])
  let t := Text.join " " args
  printed ((if escapes then unescape t else t) ++ ending)

/-- Prints a file. -/
def printFile (directory path : Text) : Look Report := do
  match ← Look.textAt (Path.join directory path) with
  | .ok t => return printed t
  | .error f => return ⟨[], "cat: " ++ path ++ ": " ++ f.reason ++ "\n", some 1⟩

/-- Prints files one behind the other. -/
def runCat (directory : Text) : List Text → Look Report
  | [] => return printed []
  | path :: r => return both (← printFile directory path) (← runCat directory r)

/-- Names in their order, each on a line, without the hidden ones. -/
def listing (names : List Text) : Text :=
  ((names.filter fun n => n.head? != some '.').mergeSort fun a b => !decide (b < a)).flatMap
    fun n => n ++ "\n"

/-- Prints the names in a directory, or the path of a file. -/
def list (directory path : Text) : Look Report := do
  match ← Look.namesAt (Path.join directory path) with
  | .ok names => return printed (listing names)
  | .error _ =>
      if ← Look.isThere (Path.join directory path) then return printed (path ++ "\n")
      else
        return ⟨[], "ls: cannot access " ++ ['\x27'] ++ path ++ ['\x27'] ++
          ": No such file or directory\n", some 2⟩

/-- Prints the names in directories, one directory behind the other. -/
def listAll (directory : Text) : List Text → Look Report
  | [] => return printed []
  | path :: r => return both (← list directory path) (← listAll directory r)

/-- Prints the names in directories, without arguments in the current one. -/
def runLs (directory : Text) (args : List Text) : Look Report :=
  match args.filter fun a => a.head? != some '-' with
  | [] => list directory "."
  | paths => listAll directory paths

/-! ### Testing -/

/-- Whether an operator holds of its operand. -/
def holds (directory operator operand : Text) : Look Bool :=
  let path := Path.join directory operand
  (([("-n", pure (operand != [])), ("-z", pure (operand == [])), ("-f", Look.isFile path),
    ("-d", Look.isDirectory path), ("-e", Look.isThere path), ("-r", Look.isThere path),
    ("!", pure (operand == []))] :
    List (Text × Look Bool)).lookup operator).getD (pure Bool.false)

/-- Whether an operator holds between its operands. -/
def compare (operator a b : Text) : Bool :=
  if operator = "!=" || operator = "-ne" then a != b
  else (operator = "=" || operator = "==" || operator = "-eq") && a == b

/-- Whether a condition holds. -/
def condition (directory : Text) : List Text → Look Bool
  | [] => return Bool.false
  | [t] => return t != []
  | [operator, operand] => holds directory operator operand
  | ['!'] :: r => return !(← condition directory r)
  | [a, operator, b] => return compare operator a b
  | _ => return Bool.false

/-- Tests a condition, which may be in brackets. -/
def runTest (directory : Text) (args : List Text) : Look Report := do
  let args := if args.getLast? = some [']'] then args.dropLast else args
  return ended (if ← condition directory args then 0 else 1)

/-! ### Running -/

/-- The tool with a name. -/
def ofName? (name : Text) : Option Tool :=
  [(("echo" : Text), echo), ("pwd", pwd), ("cat", cat), ("ls", ls), ("true", .true),
    ("false", .false), (":", .true), ("test", test), ("[", test)].lookup name

/-- Whether shells have a tool built in. -/
def isBuiltin : Tool → Bool
  | cat => Bool.false
  | ls => Bool.false
  | _ => Bool.true

/-- Runs a tool in a directory.  It depends on the caller whether `echo` knows escapes. -/
def run (tool : Tool) (escapes : Bool) (directory : Text) (args : List Text) : Look Report :=
  match tool with
  | echo => return runEcho escapes args
  | pwd => return printed (directory ++ "\n")
  | cat => runCat directory args
  | ls => runLs directory args
  | .true => return ended 0
  | .false => return ended 1
  | test => runTest directory args

end Tool

end Testbench.Shell
