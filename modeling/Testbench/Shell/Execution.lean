import Testbench.Shell.Session

/-!
# Execution of scripts

`execute` executes a program.  The programs are the tools, `ln`, the shells `sh` and `bash`,
which carry out scripts, and the program that has called the shell, which a script finds where
the system keeps the programs of its processes.  Scripts call programs in turn, to a depth that
is bounded.

All of this only serves to run the program in a world.  What is shown of the program holds for
every behaviour of the programs that are executed, and none of it rests on the shells.
-/

namespace Testbench.Shell

variable {m : Type → Type} [Monad m]

/-- A part of the execution of a script. -/
abbrev Execution (m : Type → Type) := StateT Session m

namespace Execution

/-- The result of looking at files. -/
def look {α : Type} (files : Files m) (l : Look α) : Execution m α :=
  fun s => do return (← files.look l, s)

/-! ### Streams -/

/-- Where what is printed goes. -/
inductive Sink where
  | output
  | errors
  | file (path : Text)
  | nowhere
  deriving DecidableEq

/-- The sinks of what a statement prints and of its messages. -/
structure Sinks where
  output : Sink := .output
  errors : Sink := .errors

/-- The sink with a path. -/
def Sink.ofPath (path : Text) : Sink := if path = "/dev/null" then .nowhere else .file path

/-- Prints a text into a sink. -/
def Sink.print (files : Files m) (t : Text) : Sink → Execution m Unit
  | .output => modify fun s => { s with output := s.output ++ t }
  | .errors => modify fun s => { s with errors := s.errors ++ t }
  | .file path => do
      let before ← look files (Look.textAt path)
      let _ ← files.write path ((before.toOption.getD []) ++ t)
  | .nowhere => pure ()

/-- The sinks as a redirection changes them. -/
def redirect (files : Files m) (sinks : Sinks) (r : Redirection) : Execution m Sinks := do
  let target ← look files ((← get).value r.target)
  if r.operator = "<" || r.operator = "<&" then return sinks
  if r.operator = ">&" then
    let sink := if target = "1" then sinks.output else sinks.errors
    return if r.number = some '2' then { sinks with errors := sink }
      else { sinks with output := sink }
  -- what is printed into a link goes to where the link leads
  let path := Path.join (← get).directory target
  let sink := Sink.ofPath ((← look files (Look.canonicalPath path)).toOption.getD path)
  if let .file path := sink then
    if r.operator = ">" then
      let _ ← files.write path []
  return if r.number = some '2' then { sinks with errors := sink }
    else { sinks with output := sink }

/-- The sinks as redirections change them one after the other. -/
def redirectAll (files : Files m) (sinks : Sinks) : List Redirection → Execution m Sinks
  | [] => return sinks
  | r :: more => do redirectAll files (← redirect files sinks r) more

/-! ### Statements -/

/-- The name and the value of the variable that a word assigns, if it does so. -/
def assignment? (w : Word) : Option (Text × Word) :=
  let isNamePiece : Piece → Bool
    | .char false c => Scanner.beginsName c || c.isDigit
    | _ => false
  let name := (w.takeWhile isNamePiece).filterMap fun
    | .char _ c => some c
    | _ => none
  match name, w.dropWhile isNamePiece with
  | c :: _, .char false '=' :: value => if c.isDigit then none else some (name, value)
  | _, _ => none

/-- Carries out the assignments at the start of a statement, and gives the other words. -/
def assignAll (files : Files m) : List Word → Execution m (List Word)
  | [] => return []
  | w :: r =>
    match assignment? w with
    | none => return w :: r
    | some (name, value) => do
        let value ← look files ((← get).value value)
        modify fun s => s.assign name value
        assignAll files r

/-- The whole number that a text denotes, if it is made of digits. -/
def number? (t : Text) : Option Nat :=
  if t != [] && t.all Char.isDigit then
    some (t.foldl (fun n c => 10 * n + (c.toNat - '0'.toNat)) 0)
  else none

/-- Ends a script with a code, or by a signal. -/
def finish (code : Option Int) : Execution m Report := do
  modify fun s => { s with ended := some code }
  return ⟨[], [], code⟩

/-- Exports the variables with given names, some of which may be assigned values. -/
def exportAll : List Text → Execution m Unit
  | [] => pure ()
  | t :: r => do
      let name := t.takeWhile (· != '=')
      modify fun s => { s with exported := name :: s.exported }
      match t.dropWhile (· != '=') with
      | [] => pure ()
      | _ :: value => modify fun s => s.assign name value
      exportAll r

/-- Makes a directory the current one. -/
def change (files : Files m) (path : Text) : Execution m Report := do
  match ← look files (Look.canonicalPath (Path.join (← get).directory path)) with
  | .ok directory =>
      modify fun s => { s with directory }
      return Tool.ended 0
  | .error f => return ⟨[], "cd: " ++ path ++ ": " ++ f.reason ++ "\n", some 1⟩

/-- What a command of the shell itself does, if there is one with a name. -/
def builtin? (files : Files m) (name : Text) (args : List Text) :
    Option (Execution m Report) :=
  if name = "exit" then
    some do
      match args.head? >>= number? with
      | some n => finish (some (n % 256 : Nat))
      | none => finish (some (← get).status)
  else if name = "kill" then
    some (if args.contains Session.processNumber then finish none else return Tool.ended 1)
  else if name = "export" then some (do exportAll args; return Tool.ended 0)
  else if name = "cd" then some (change files (args.head?.getD "/"))
  else if name = "set" || name = "umask" || name = "wait" then some (return Tool.ended 0)
  else if name = "shift" then
    some do
      modify fun s => { s with args := s.args.take 1 ++ s.args.drop 2 }
      return Tool.ended 0
  else
    match Tool.ofName? name with
    | none => none
    | some tool =>
        if tool.isBuiltin then
          some do look files (tool.run ((← get).dialect = .sh) (← get).directory args)
        else none

/-- The message of a shell about a line of its script. -/
def complaint (s : Session) (line : Nat) (t : Text) : Text :=
  let place :=
    match s.dialect with
    | .sh => ": "
    | .bash => ": line "
  s.args.headD [] ++ place ++ Text.ofNat line ++ ": " ++ t ++ "\n"

/-- The report on a program that could not be executed. -/
def failed (s : Session) (line : Nat) (name : Text) (f : Fault) : Report :=
  match f, s.dialect with
  | .notFound, .sh => ⟨[], complaint s line (name ++ ": not found"), some 127⟩
  | .notFound, .bash => ⟨[], complaint s line (name ++ ": command not found"), some 127⟩
  | f, _ => ⟨[], complaint s line (name ++ ": " ++ f.reason), some 126⟩

/-- Carries out a command, which may call a program. -/
def command (files : Files m) (call : Process → m (Except Fault Report)) (line : Nat)
    (name : Text) (args : List Text) : Execution m Report := do
  match builtin? files name args with
  | some execution => execution
  | none =>
      let s ← get
      match ← call ⟨name, args, s.directory, s.passed⟩ with
      | .ok r => return r
      | .error f => return failed s line name f

/-- Whether a statement is to be carried out. -/
def applies (s : Session) (statement : Statement) : Bool :=
  match statement.condition with
  | .always => true
  | .success => s.status == 0
  | .failure => s.status != 0

/-- Carries out a statement. -/
def statement (files : Files m) (call : Process → m (Except Fault Report))
    (statement : Statement) : Execution m Unit := do
  let sinks ← redirectAll files {} statement.redirections
  let words ← assignAll files statement.words
  match ← look files ((← get).allFields words) with
  | [] => modify fun s => { s with status := 0 }
  | name :: args => do
      let report ← command files call statement.line name args
      sinks.output.print files report.output
      sinks.errors.print files report.errors
      modify fun s => { s with status := report.code.getD 137 }

/-- Carries out a script, up to the statement that ends it. -/
def script (files : Files m) (call : Process → m (Except Fault Report)) :
    Script → Execution m Unit
  | [] => pure ()
  | x :: r => do
      let s ← get
      if s.ended.isSome then return
      if applies s x then statement files call x
      script files call r

end Execution

/-! ### Programs -/

/-- What programs are given: access to files, how a link is made, and how the program that has
called the shell is run again. -/
structure Setting (m : Type → Type) extends Files m where
  link : (path target : Text) → m (Except Fault Unit)
  caller : Process → m Report

/-- A program that can be executed. -/
inductive Program where
  | shell (d : Dialect)
  | tool (t : Tool)
  | link
  | caller
  deriving DecidableEq

/-- The program with a name. -/
def Program.ofName? (name : Text) : Option Program :=
  ([(("sh" : Text), Program.shell .sh), ("dash", .shell .sh), ("bash", .shell .bash),
    ("ln", .link)].lookup name).or ((Tool.ofName? name).map .tool)

/-- The directories in which the programs are. -/
def programDirectories : List Text := ["/bin", "/usr/bin"]

/-- Where the system keeps the program that has called the shell. -/
def callerPath : Text := "/proc/" ++ Session.callerNumber ++ "/exe"

/-- The program that a process executes.  A file that is not among the programs cannot be
executed. -/
def Program.find (p : Process) : Look (Except Fault Program) := do
  if !p.program.contains '/' then
    match Program.ofName? p.program with
    | some program => return .ok program
    | none => return .error .notFound
  let path := Path.join p.directory p.program
  if path = callerPath then return .ok .caller
  if programDirectories.contains (Path.directory path) then
    match Path.fileName? path >>= Program.ofName? with
    | some program => return .ok program
    | none => return .error .notFound
  return .error (if ← Look.isThere path then .denied else .notFound)

/-- The session in which a script is carried out for a process. -/
def Session.ofProcess (d : Dialect) (p : Process) (args : List Text) : Session :=
  ⟨d, p.directory, p.env, p.env.map (·.name), args, 0, [], [], none⟩

/-- The report of a shell on a script that it carries out. -/
def interpret {m : Type → Type} [Monad m] (files : Files m)
    (call : Process → m (Except Fault Report)) (s : Session) (t : Text) : m Report := do
  match Script.ofTokens? (tokens t) with
  | none => return ⟨[], Execution.complaint s 1 "Syntax error", some 2⟩
  | some script =>
      let (_, s) ← Execution.script files call script s
      return ⟨s.output, s.errors, s.ended.getD (some s.status)⟩

/-- The report of a shell on a script that it cannot read. -/
def unreadable (d : Dialect) (path : Text) (f : Fault) : Report :=
  match d with
  | .sh => ⟨[], "sh: 0: cannot open " ++ path ++ ": No such file\n", some 2⟩
  | .bash => ⟨[], "bash: " ++ path ++ ": " ++ f.reason ++ "\n", some 127⟩

/-- Runs a shell with the arguments of a process. -/
def runShell {m : Type → Type} [Monad m] (files : Files m)
    (call : Process → m (Except Fault Report)) (d : Dialect) (p : Process) : m Report := do
  let name : Text := if d = .sh then "sh" else "bash"
  match p.args.dropWhile fun (a : Text) => a.head? == some '-' && a != "-c" with
  | [] => return Tool.printed []
  | ['-', 'c'] :: t :: args =>
      interpret files call
        (Session.ofProcess d p (if args = [] then [name] else args)) t
  | path :: args =>
    match ← files.look (Look.textAt (Path.join p.directory path)) with
    | .error f => return unreadable d path f
    | .ok t => interpret files call (Session.ofProcess d p (path :: args)) t

/-- Makes the link that the arguments of a process ask for. -/
def runLink {m : Type → Type} [Monad m] (setting : Setting m) (p : Process) : m Report := do
  match p.args with
  | [['-', 's'], target, path] =>
    match ← setting.link (Path.join p.directory path) target with
    | .ok () => return Tool.ended 0
    | .error f =>
        return ⟨[], "ln: failed to create symbolic link " ++ ['\x27'] ++ path ++ ['\x27'] ++ ": " ++
          f.reason ++ "\n", some 1⟩
  | _ => return ⟨[], "ln: invalid arguments\n", some 1⟩

/-- Executes a process; programs can call each other as often as `depth` says. -/
def execute {m : Type → Type} [Monad m] (setting : Setting m) (depth : Nat) (p : Process) :
    m (Except Fault Report) :=
  match depth with
  | 0 => return .error (.other "Resource temporarily unavailable")
  | depth + 1 => do
    match ← setting.look (Program.find p) with
    | .error f => return .error f
    | .ok (.tool t) => return .ok (← setting.look (t.run false p.directory p.args))
    | .ok (.shell d) => return .ok (← runShell setting.toFiles (execute setting depth) d p)
    | .ok .link => return .ok (← runLink setting p)
    | .ok .caller => return .ok (← setting.caller p)

/-- The depth to which scripts may call other scripts. -/
def depthLimit : Nat := 64

end Testbench.Shell
