import Testbench.Command.Task
import Testbench.Host.World
import Testbench.Proofs.Stage

/-!
# The first stage in a world

A part of the first stage only looks, so that in a world it is a function of the notices that
were given before.  `Gives` says which value it has and which notices have been given after it; a
chain gives a value exactly if its parts do.  From there each command is inverted once: what
has been read if it has a task, and which task this is.
-/

namespace Testbench

namespace Attempt

variable {α β ε : Type} {w : World} {n n' : List Notice} {a a' : α} {b : β}

/-- In a world a part of the first stage has a value, with the notices before and after it. -/
def Gives (w : World) (n : List Notice) (x : Attempt α) (a : α) (n' : List Notice) : Prop :=
  w.see (x.run n) = (.ok a, n')

/-! ### Chains -/

@[simp]
theorem gives_pure :
  Gives w n (pure a) a' n' ↔ a = a' ∧ n = n'
  := by
  change (Except.ok a, n) = (.ok a', n') ↔ _
  simp

@[simp]
theorem not_gives_throw {f : Failure} :
  ¬Gives w n (throw f) a n'
  := by
  change ¬((Except.error f, n) = (.ok a, n'))
  simp

/-- A chain gives a value exactly if its first part gives one of which the second makes it. -/
@[simp]
theorem gives_bind {x : Attempt α} {f : α → Attempt β} :
  Gives w n (x >>= f) b n' ↔ ∃ a m, Gives w n x a m ∧ Gives w m (f a) b n'
  := by
  have see : w.see ((x >>= f).run n) =
      match w.see (x.run n) with
      | (.ok a, m) => w.see ((f a).run m)
      | (.error e, m) => (.error e, m) := by
    refine (World.see_bind w (x.run n) _).trans ?_
    rcases w.see (x.run n) with ⟨e | a, m⟩
    · rfl
    · rfl
  rw [Gives, see]
  rcases h : w.see (x.run n) with ⟨e | a, m⟩
  · simp [Gives, h]
  · simp [Gives, h]

@[simp]
theorem gives_look {l : Look α} :
  Gives w n (look l) a n' ↔ w.see l = a ∧ n = n'
  := by
  have see : w.see ((look l).run n) = (.ok (w.see l), n) := World.see_bind w l _
  rw [Gives, see]
  simp

@[simp]
theorem gives_note {notice : Notice} {u : Unit} :
  Gives w n (note notice) u n' ↔ n ++ [notice] = n'
  := by
  change (Except.ok (), n ++ [notice]) = (.ok u, n') ↔ _
  simp

@[simp]
theorem gives_orFail {failure : ε → Failure} {r : Except ε α} :
  Gives w n (orFail failure r) a n' ↔ r = .ok a ∧ n = n'
  := by
  change (r.mapError failure, n) = (.ok a, n') ↔ _
  simp

end Attempt

open Attempt Vhdl

variable {w : World} {n n' : List Notice} {config : Config} {file bench : Text} {input : Input}
  {e : Entity} {task : Task} {directory command : Option Text} {record makefile : Bool}

/-! ### Reading -/

/-- What is known of an entity that has been found in a file. -/
structure Input.IsRead (input : Input) (w : World) (file : Text) : Prop where
  path : input.path = file
  kind : SourceKind.ofPath? file = some input.kind
  text : w.tree.text w.here file = .ok input.text
  entity : input.kind = .vhdl → Entity.ofSource input.text = .ok input.entity

theorem isRead_of_readInput (h : Gives w n (readInput file) input n') :
  input.IsRead w file
  := by
  rw [readInput] at h
  cases kind : SourceKind.ofPath? file with
  | none => simp [kind] at h
  | some k =>
    simp only [kind, readFile, gives_bind, gives_look, gives_orFail, gives_note, gives_pure] at h
    obtain ⟨t, n₁, ⟨_, _, ⟨rfl, rfl⟩, text, rfl⟩, e, n₂, entity, _, _, _, rfl, _⟩ := h
    refine ⟨rfl, kind, text, ?_⟩
    rintro rfl
    exact (gives_orFail.1 entity).1

theorem generate_of_makeBench (h : Gives w n (makeBench e config) bench n') :
  Bench.generate e config = .ok bench
  := by
  rw [makeBench] at h
  split at h
  · simp only [gives_bind, gives_note, gives_orFail] at h
    obtain ⟨_, _, _, generated, _⟩ := h
    exact generated
  · exact (gives_orFail.1 h).1

/-- The copy of the source has its text and a name that no generated file has. -/
theorem of_sourceCopy {generated copy : List (Text × Text)}
    (h : Gives w n (sourceCopy input generated) copy n') (kind : input.kind = .vhdl) :
  copy = [((Path.fileName? input.path).getD [], input.text)] ∧
    ∀ x ∈ generated, ¬x.1.sameWord ((Path.fileName? input.path).getD [])
  := by
  rw [sourceCopy, kind] at h
  simp only at h
  split at h
  · simp at h
  · next none =>
    obtain ⟨rfl, -⟩ := gives_pure.1 h
    refine ⟨rfl, ?_⟩
    intro x hx
    exact List.find?_eq_none.1 none x hx

/-! ### Commands -/

theorem of_prepareParse {output : Option Text}
    (h : Gives w n (prepareParse file output) task n') :
  (∃ path t, task = .save [(path, t)] false) ∨ ∃ t, task = .print t
  := by
  rw [prepareParse] at h
  split at h
  · simp at h
  · simp only [gives_bind] at h
    obtain ⟨input, _, _, h⟩ := h
    cases output with
    | none => exact Or.inr ⟨_, (gives_pure.1 h).1.symm⟩
    | some path => exact Or.inl ⟨_, _, (gives_pure.1 h).1.symm⟩

theorem of_prepareCheck (h : Gives w n (prepareCheck file bench) task n') :
  ∃ t, task = .print t
  := by
  simp only [prepareCheck, gives_bind] at h
  obtain ⟨input, _, _, t, _, _, h⟩ := h
  split at h
  · simp only [gives_bind, gives_pure] at h
    obtain ⟨_, _, _, rfl, -⟩ := h
    exact ⟨_, rfl⟩
  · simp at h

/-- Without a directory the bench is printed. -/
theorem of_prepareGenerate_none
    (h : Gives w n (prepareGenerate config file none record makefile) task n') :
  ∃ t, task = .print t
  := by
  simp only [prepareGenerate, gives_bind] at h
  obtain ⟨input, _, _, bench, _, _, h⟩ := h
  split at h
  · simp only [gives_bind, gives_pure] at h
    obtain ⟨_, _, _, rfl, -⟩ := h
    exact ⟨_, rfl⟩
  · exact ⟨_, (gives_pure.1 h).1.symm⟩

/-- The bench is written first into a directory, and behind it at most the record and the
makefile. -/
theorem of_prepareGenerate_some {path : Text}
    (h : Gives w n (prepareGenerate config file (some path) record makefile) task n') :
  ∃ (input : Input) (bench : Text) (more : List (Text × Text)),
    input.IsRead w file ∧ Bench.generate input.entity config = .ok bench ∧
    (∀ x ∈ more, x.1 = recordFile input.entity ∨ x.1 = Makefile.fileName) ∧
    task = .save (((benchFile input.entity config, bench) :: more).map
      fun x => (Path.join path x.1, x.2)) true
  := by
  simp only [prepareGenerate, gives_bind] at h
  obtain ⟨input, _, read, bench, _, made, h⟩ := h
  have records : ∀ x ∈ (if record then [(recordFile input.entity, recordText input.entity)]
      else []), x.1 = recordFile input.entity := by
    intro x hx
    split at hx
    · rw [List.mem_singleton.1 hx]
    · simp at hx
  refine ⟨input, bench, ?_⟩
  split at h
  · simp only [gives_bind, gives_pure] at h
    obtain ⟨m, _, _, _, _, ⟨rfl, -⟩, rfl, -⟩ := h
    refine ⟨_ ++ [(Makefile.fileName, m.text)], isRead_of_readInput read,
      generate_of_makeBench made, ?_, rfl⟩
    intro x hx
    rcases List.mem_append.1 hx with hx | hx
    · exact Or.inl (records x hx)
    · exact Or.inr (by rw [List.mem_singleton.1 hx])
  · simp only [gives_bind, gives_pure] at h
    obtain ⟨_, _, ⟨rfl, -⟩, rfl, -⟩ := h
    refine ⟨_ ++ [], isRead_of_readInput read, generate_of_makeBench made, ?_, rfl⟩
    intro x hx
    rw [List.append_nil] at hx
    exact Or.inl (records x hx)

/-- The files that are generated for an entity, by their names. -/
def generatedFiles (e : Entity) (config : Config) (bench : Text) : List (Text × Text) :=
  [(benchFile e config, bench), (recordFile e, recordText e)]

/-- The directory in which `run` simulates when it is started in a world. -/
def World.simulationPlace (w : World) (directory : Option Text) : Text :=
  Path.join (Tree.absolutePath w.here) (directory.getD simulationDirectory)

/-- What `run` prepares: the files that are generated are followed by a copy of the source, if
there is one, that has the name of none of them. -/
structure Simulation.IsPrepared (s : Simulation) (w : World) (config : Config) (file : Text)
    (directory : Option Text) (input : Input) (bench : Text) (copy : List (Text × Text)) :
    Prop where
  read : input.IsRead w file
  generated : Bench.generate input.entity config = .ok bench
  place : s.directory = w.simulationPlace directory
  files : s.files = generatedFiles input.entity config bench ++ copy
  copied : input.kind = .vhdl →
    copy = [((Path.fileName? input.path).getD [], input.text)] ∧
      ∀ x ∈ generatedFiles input.entity config bench,
        ¬x.1.sameWord ((Path.fileName? input.path).getD [])

theorem of_prepareRun (h : Gives w n (prepareRun config file directory command) task n') :
  ∃ s input bench copy, task = .simulate s ∧ s.IsPrepared w config file directory input bench copy
  := by
  simp only [prepareRun, gives_bind] at h
  obtain ⟨input, _, read, bench, _, made, copy, _, copied, root, _, here, h⟩ := h
  obtain ⟨rfl, -⟩ := gives_pure.1 h
  refine ⟨_, input, bench, copy, rfl, isRead_of_readInput read, generate_of_makeBench made, ?_,
    rfl, of_sourceCopy copied⟩
  rw [← (gives_look.1 here).1]
  rfl

/-! ### Invocations -/

/-- The configuration that an invocation finds in a world. -/
def Invocation.configuration (i : Invocation) (w : World) : Except Failure Config :=
  (w.see ((findConfig i.config).run [])).1

/-- What an invocation prepares is the task of its command under the configuration that it
finds, unless it only prints something. -/
theorem of_prepare {i : Invocation} (h : Gives w [] i.prepare task n') :
  (∃ t, task = .print t) ∨ ∃ c config n, i.command = some c ∧ i.configuration w = .ok config ∧
    Gives w n (c.prepare config) task n'
  := by
  rw [Invocation.prepare] at h
  split at h
  · exact Or.inl ⟨_, (gives_pure.1 h).1.symm⟩
  · split at h
    · exact Or.inl ⟨_, (gives_pure.1 h).1.symm⟩
    · next c command =>
      obtain ⟨config, n, found, prepared⟩ := gives_bind.1 h
      exact Or.inr ⟨c, config, n, command, congrArg Prod.fst found, prepared⟩

/-- Only `run` prepares a simulation. -/
theorem isPrepared_of_prepare {i : Invocation} {s : Simulation}
    (h : Gives w [] i.prepare (.simulate s) n') :
  ∃ config file directory command input bench copy,
    i.command = some (.run file directory command) ∧ i.configuration w = .ok config ∧
    s.IsPrepared w config file directory input bench copy
  := by
  obtain ⟨t, eq⟩ | ⟨c, config, n, command, found, h⟩ := of_prepare h
  · cases eq
  · cases c with
    | parse file output => obtain ⟨_, _, eq⟩ | ⟨_, eq⟩ := of_prepareParse h <;> cases eq
    | check file bench =>
      obtain ⟨_, eq⟩ := of_prepareCheck h
      cases eq
    | generate file directory record makefile =>
      cases directory with
      | none =>
        obtain ⟨_, eq⟩ := of_prepareGenerate_none h
        cases eq
      | some path =>
        obtain ⟨_, _, _, -, -, -, eq⟩ := of_prepareGenerate_some h
        cases eq
    | run file directory command =>
      obtain ⟨_, input, bench, copy, eq, prepared⟩ := of_prepareRun h
      cases eq
      exact ⟨config, file, directory, _, input, bench, copy, command, found, prepared⟩

end Testbench
