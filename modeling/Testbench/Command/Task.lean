import Testbench.Bench.Assembly
import Testbench.Check.Missing
import Testbench.Command.Notice
import Testbench.Command.Path
import Testbench.Config.Reading
import Testbench.Record.Json
import Testbench.Simulation.Makefile
import Testbench.Vhdl.Source

/-!
# Tasks

A command is carried out in two stages.  In the first one its files are read and every
text that it is to write is made; the result is a `Task`, and nothing has been changed.
The second stage performs the task.
-/

namespace Testbench

open Vhdl

/-- A bench that is to be simulated: the entity, the name of the bench, the directory and
the files that are written into it, the bench first, and how the simulator is called. -/
structure Simulation where
  entity : Text
  top : Text
  directory : Text
  files : List (Text × Text)
  simulator : Simulator
  env : List (Text × Text)
  deriving DecidableEq

/-- What is left to do when everything has been read and checked. -/
inductive Task where
  | print (t : Text)
  | save (files : List (Text × Text)) (listed : Bool)
  | simulate (s : Simulation)
  deriving DecidableEq

/-- A part of the first stage.  It looks at files, gives notice of what it does, and may
fail. -/
abbrev Attempt := ExceptT Failure (StateT (List Notice) Look)

namespace Attempt

/-- The result of looking at files. -/
def look {α : Type} (l : Look α) : Attempt α := fun notices => do
  return (.ok (← l), notices)

/-- Gives notice of something. -/
def note (n : Notice) : Attempt Unit := fun notices => return (.ok (), notices ++ [n])

/-- The value of a result, or the failure that its error causes. -/
def orFail {ε α : Type} (failure : ε → Failure) (r : Except ε α) : Attempt α :=
  ExceptT.mk (return r.mapError failure)

end Attempt

open Attempt

/-! ### Reading -/

/-- The text of a file that has to be there. -/
def readFile (path : Text) : Attempt Text := do
  orFail (fun f => .unreadable (some path) f.message) (← look (Look.textAt path))

/-- The name of the file with the configuration, unless another one is named. -/
def configFile : Text := "tbgen.toml"

/-- Reads the configuration in a file. -/
def readConfig (path : Text) : Attempt Config := do
  if !(← look (Look.isFile path)) then
    throw (.configInvalid path "file does not exist")
  let t ← orFail (fun f => .unreadable none f.message) (← look (Look.textAt path))
  note (.info ("loading configuration from " ++ path.quoted))
  match Config.ofText? t with
  | some c => return c
  | none => throw (.configInvalid path "not a configuration")

/-- The configuration in the file that is named on the command line, or else by the
environment, or else in the current directory if it is there. -/
def findConfig (path : Option Text) : Attempt Config := do
  match path.or (← look (Look.valueOf "TBGEN_CONFIG")) with
  | some path => readConfig path
  | none => do
      if ← look (Look.isFile configFile) then readConfig configFile
      else return Config.standard

/-- An entity, and the file in which it has been found. -/
structure Input where
  entity : Entity
  kind : SourceKind
  path : Text
  text : Text
  deriving DecidableEq

/-- Gives notice of the version of a record, unless it is the current one. -/
def checkVersion (r : Record) : Attempt Unit := do
  if let some m := r.metadata then
    if m.version != Record.currentVersion then
      note (.warning ("record was written by parser version " ++ m.version ++ " (expected " ++
        Record.currentVersion ++ ")"))

/-- The entity that a text describes. -/
def readEntity (kind : SourceKind) (path t : Text) : Attempt Entity := do
  match kind with
  | .vhdl => orFail (fun e => .unreadable (some path) e.message) (Entity.ofSource t)
  | .record =>
      let r ← orFail (fun e => .unreadable (some path) e.message) (Record.ofText t)
      checkVersion r
      orFail (fun e => .unreadable (some path) e.message) r.entity

/-- Reads the entity in a file. -/
def readInput (path : Text) : Attempt Input := do
  let some kind := SourceKind.ofPath? path
    | throw (.unsupportedInput path .inputExtensions)
  let t ← readFile path
  let e ← readEntity kind path t
  note (.info ("read entity " ++ e.name.text ++ " from " ++ path.quoted))
  return ⟨e, kind, path, t⟩

/-! ### Texts -/

/-- The bench of an entity. -/
def makeBench (e : Entity) (config : Config) : Attempt Text := do
  if (Bench.plan e config).isEmpty then
    note (.info ("entity " ++ e.name.text ++ " has no data inputs to drive"))
  orFail (fun error => .generationFailed e.name.text error.message) (Bench.generate e config)

/-- The name of the file with the bench of an entity. -/
def benchFile (e : Entity) (config : Config) : Text := Bench.topName e config ++ ".vhd"

/-- The name of the file with the record of an entity. -/
def recordFile (e : Entity) : Text := e.name.text ++ ".json"

/-- The text of the record of an entity. -/
def recordText (e : Entity) : Text := (Record.ofEntity e).text

/-- The directory, seen from that of the makefile, where the simulator keeps its files. -/
def buildDirectory : Text := "sim"

/-- The makefile for the bench of an entity. -/
def makeMakefile (input : Input) (config : Config) : Attempt Makefile := do
  let e := input.entity
  let source ←
    match input.kind with
    | .vhdl => do
        let path ← look (Look.canonicalPath input.path)
        pure [← orFail (fun f => .unreadable none f.message) path]
    | .record => do
        note (.warning ("makefile does not list the source of entity " ++ e.name.text ++
          " when reading a record"))
        pure []
  return ⟨e.name.text, source ++ [benchFile e config], buildDirectory, Bench.topName e config⟩

/-- The copy of the source beside generated files, whose names it must not have. -/
def sourceCopy (input : Input) (generated : List (Text × Text)) : Attempt (List (Text × Text)) :=
  match input.kind with
  | .record => return []
  | .vhdl => do
      let name := (Path.fileName? input.path).getD []
      match generated.find? fun (n, _) => n.sameWord name with
      | some (n, _) => throw (.nameCollision input.path n .renameSource)
      | none => return [(name, input.text)]

/-! ### Commands -/

/-- The task of `parse`. -/
def prepareParse (file : Text) (output : Option Text) : Attempt Task := do
  if SourceKind.ofPath? file != some .vhdl then
    throw (.unsupportedInput file .sourceOnly)
  let t := recordText (← readInput file).entity
  match output with
  | some path => return .save [(path, t)] false
  | none => return .print (t ++ "\n")

/-- The task of `generate`. -/
def prepareGenerate (config : Config) (file : Text) (directory : Option Text)
    (record makefile : Bool) : Attempt Task := do
  let input ← readInput file
  let e := input.entity
  let bench ← makeBench e config
  match directory with
  | none => do
      if record || makefile then
        note (.warning "ignoring \"--json\" and \"--makefile\" without \"--out-dir\"")
      return .print bench
  | some directory => do
      let records := if record then [(recordFile e, recordText e)] else []
      let makefiles ←
        if makefile then do
          let m ← makeMakefile input config
          pure [(Makefile.fileName, m.text)]
        else pure []
      let files := (benchFile e config, bench) :: records ++ makefiles
      return .save (files.map fun (name, t) => (Path.join directory name, t)) true

/-- The directory in which benches are simulated, unless another one is named. -/
def simulationDirectory : Text := "build"

/-- The task of `run`. -/
def prepareRun (config : Config) (file : Text) (directory command : Option Text) :
    Attempt Task := do
  let input ← readInput file
  let e := input.entity
  let generated := [(benchFile e config, ← makeBench e config), (recordFile e, recordText e)]
  let copy ← sourceCopy input generated
  let root ← look Look.currentDirectory
  return .simulate {
    entity := e.name.text
    top := Bench.topName e config
    directory := Path.join root (directory.getD simulationDirectory)
    files := generated ++ copy
    simulator := { config.simulator with command := command.getD config.simulator.command }
    env := (config.env.map (·.entries)).getD [] }

/-- The task of `check`. -/
def prepareCheck (file bench : Text) : Attempt Task := do
  let e := (← readInput file).entity
  match Check.missing e (← readFile bench) with
  | [] => do
      note (.info ("testbench " ++ bench.quoted ++ " references every port of " ++ e.name.text))
      return .print ("testbench " ++ bench.quoted ++ " is compatible with entity " ++
        e.name.text ++ "\n")
  | missing =>
      throw (.incompatibleBench bench e.name.text
        (Text.join "; " (missing.map Check.Missing.message)))

/-- The task of a command. -/
def Command.prepare (c : Command) (config : Config) : Attempt Task :=
  match c with
  | .parse file output => prepareParse file output
  | .generate file directory record makefile =>
      prepareGenerate config file directory record makefile
  | .run file directory command => prepareRun config file directory command
  | .check file bench => prepareCheck file bench

/-- The task of an invocation. -/
def Invocation.prepare (i : Invocation) : Attempt Task :=
  if i.version then return .print (Bench.generator ++ "\n")
  else
    match i.command with
    | none => return .print (Topic.program.help ++ "\n")
    | some c => do c.prepare (← findConfig i.config)

end Testbench
