import Testbench.Proofs.Command.Attempt
import Testbench.Proofs.Host.Journal
import Testbench.Proofs.Host.Writing

/-!
# The second stage in a journal

What is done when a task is performed is told stage by stage: files are written one after the
other, up to the first that is refused; a simulation writes its files, finds its directory, and
executes the simulator in a world in which the files are there.  The `outcome` of an invocation
is its result with the journal of what it does.
-/

namespace Testbench

/-- A file is written. -/
def Event.wrote (x : Text × Text) : Event := .write x.1 x.2 (.ok ())

/-- Whether a failure is one of the simulator, and not of the program. -/
def Failure.isOfSimulator : Failure → Bool
  | .exitCode _ => true
  | .terminated => true
  | .simulatorFailed _ _ => true
  | _ => false

theorem isOfSimulator_of_failure? {code : Option Int} {f : Failure}
    (h : Performance.failure? code = some f) :
  f.isOfSimulator
  := by
  unfold Performance.failure? at h
  split at h
  · simp at h
  · obtain rfl := Option.some.inj h
    rfl
  · obtain rfl := Option.some.inj h
    rfl

namespace Journal

variable {α β : Type} {b : Behaviour} {j j' j'' : Journal} {f : Failure} {x : Text × Text}
  {xs ys : List (Text × Text)}

/-! ### Runs -/

/-- What a part of a performance comes to in a journal. -/
def perform (j : Journal) (x : Performance (StateM Journal) α) : Except Failure α × Journal :=
  x.run j

theorem perform_look (l : Look α) :
  j.perform (Performance.look (host b) l) = (.ok (j.world.see l), j)
  := rfl

theorem bind_apply (x : StateM Journal α) (g : α → StateM Journal β) :
  (x >>= g) j = g (x j).1 (x j).2
  := rfl

theorem look_apply (l : Look α) :
  (host b).look l j = (j.world.see l, j)
  := rfl

/-- A chain goes on where its first part has ended. -/
theorem perform_bind (x : Performance (StateM Journal) α)
    (g : α → Performance (StateM Journal) β) :
  j.perform (x >>= g) =
    match j.perform x with
    | (.ok a, j') => j'.perform (g a)
    | (.error f, j') => (.error f, j')
  := by
  have next : ∀ p, j.perform x = p → j.perform (x >>= g) =
      (ExceptT.bindCont g p.1 : StateM Journal (Except Failure β)) p.2 := fun _ h => h ▸ rfl
  rcases h : j.perform x with ⟨f | a, j'⟩
  · exact next _ h
  · exact next _ h

theorem perform_lift (x : StateM Journal α) :
  j.perform (liftM x) = (.ok (x j).1, (x j).2)
  := rfl

/-- A chain goes on behind a part that cannot fail. -/
theorem perform_lift_bind (x : StateM Journal α) (g : α → Performance (StateM Journal) β) :
  j.perform (liftM x >>= g) = (x j).2.perform (g (x j).1)
  := rfl

/-! ### Writing -/

/-- In a journal files have been written, and nothing else has been done but showing
something. -/
structure Wrote (j j' : Journal) (xs : List (Text × Text)) : Prop where
  tree : j.world.tree.writeAll j.world.here xs = .ok j'.world.tree
  here : j'.world.here = j.world.here
  events : j'.events = j.events ++ xs.map Event.wrote

namespace Wrote

theorem refl (j : Journal) :
  Wrote j j []
  := ⟨rfl, rfl, (List.append_nil _).symm⟩

theorem trans (h : Wrote j j' xs) (h' : Wrote j' j'' ys) :
  Wrote j j'' (xs ++ ys)
  := by
  constructor
  · rw [Tree.writeAll_append, h.tree, ← h.here]
    exact h'.tree
  · rw [h'.here, h.here]
  · rw [h'.events, h.events, List.map_append, List.append_assoc]

/-- What is shown afterwards does not matter. -/
theorem shown (h : Wrote j j' xs) (h' : Wrote j' j'' []) :
  Wrote j j'' xs
  := by
  simpa using h.trans h'

/-- Where nothing has been done before, what is written can be read off the journal. -/
theorem wrote_mem_iff (h : Wrote j j' xs) (start : j.events = []) :
  Event.wrote x ∈ j'.events ↔ x ∈ xs
  := by
  rw [h.events, start, List.nil_append, List.mem_map]
  constructor
  · rintro ⟨y, hy, eq⟩
    obtain rfl : y = x := by simpa [Event.wrote, Prod.ext_iff] using eq
    exact hy
  · exact fun hx => ⟨x, hx, rfl⟩

/-- Where no file is written the files are as before. -/
theorem tree_eq (h : Wrote j j' []) :
  j'.world.tree = j.world.tree
  := (Except.ok.inj h.tree).symm

end Wrote

/-- What is shown is no event, and leaves the files as they are. -/
theorem wrote_report (b : Behaviour) (t : Text) :
  Wrote j ((host b).report t j).2 []
  := ⟨rfl, rfl, (List.append_nil _).symm⟩

theorem wrote_print (b : Behaviour) (t : Text) :
  Wrote j ((host b).print t j).2 []
  := ⟨rfl, rfl, (List.append_nil _).symm⟩

/-- The journal with the refusal of a file. -/
def refuse (j : Journal) (x : Text × Text) (fault : Fault) : Journal :=
  ⟨j.world, j.events ++ [.write x.1 x.2 (.error fault)]⟩

/-- A file is written, or it is refused. -/
theorem write_cases (x : Text × Text) :
  (∃ j', Wrote j j' [x] ∧ (host b).write x.1 x.2 j = (.ok (), j')) ∨
    ∃ fault, (host b).write x.1 x.2 j = (.error fault, j.refuse x fault)
  := by
  have write : (host b).write x.1 x.2 j = ((j.world.write x.1 x.2).1,
      ⟨(j.world.write x.1 x.2).2, j.events ++ [.write x.1 x.2 (j.world.write x.1 x.2).1]⟩) := rfl
  rw [write, World.write]
  cases h : j.world.tree.write j.world.here x.1 x.2 with
  | ok tree =>
    have written : j.world.tree.writeAll j.world.here [x] = .ok tree := by
      rw [Tree.writeAll, h]
      rfl
    exact Or.inl ⟨⟨{ j.world with tree }, j.events ++ [.wrote x]⟩, ⟨written, rfl, rfl⟩, rfl⟩
  | error fault => exact Or.inr ⟨fault, rfl⟩

/-- What saving files can come to: all of them are written, or those in front of one that is
refused. -/
inductive Saves (j : Journal) (xs : List (Text × Text)) : Except Failure Unit × Journal → Prop
  | all {j' : Journal} (h : Wrote j j' xs) : Saves j xs (.ok (), j')
  | refused {j' : Journal} {done rest : List (Text × Text)} {x : Text × Text} {fault : Fault}
      (split : xs = done ++ x :: rest) (h : Wrote j j' done) :
      Saves j xs (.error (.unreadable none fault.message), j'.refuse x fault)

/-- Files can be saved behind others. -/
theorem Saves.after {r : Except Failure Unit × Journal} (h : Wrote j j' xs) (h' : Saves j' ys r) :
  Saves j (xs ++ ys) r
  := by
  cases h' with
  | all h' => exact Saves.all (h.trans h')
  | refused split h' =>
    subst split
    exact Saves.refused (List.append_assoc _ _ _).symm (h.trans h')

/-- The files that are written are the first ones. -/
theorem Saves.exists_wrote {r : Except Failure Unit × Journal} (h : Saves j xs r) :
  ∃ done rest j', xs = done ++ rest ∧ Wrote j j' done ∧ r.2.world = j'.world ∧
    ∀ x, Event.wrote x ∈ r.2.events ↔ Event.wrote x ∈ j'.events
  := by
  cases h with
  | all h => exact ⟨xs, [], _, (List.append_nil _).symm, h, rfl, fun _ => Iff.rfl⟩
  | @refused j' done rest x fault split h =>
    refine ⟨done, x :: rest, j', split, h, rfl, ?_⟩
    intro y
    simp [refuse, Event.wrote]

theorem saves_save (d : Display) (xs : List (Text × Text)) :
  Saves j xs (j.perform (Performance.save (host b) d xs))
  := by
  induction xs generalizing j with
  | nil => exact Saves.all (Wrote.refl j)
  | cons x xs ih =>
    rw [Performance.save, perform_lift_bind]
    rcases write_cases (b := b) (j := j) x with ⟨j', first, eq⟩ | ⟨fault, eq⟩
    · rw [eq]
      exact Saves.after (first.trans (wrote_report b _)) ih
    · rw [eq]
      exact Saves.refused rfl (Wrote.refl j)

/-! ### Simulations -/

/-- The files of a simulation with their paths. -/
def paths (s : Simulation) : List (Text × Text) :=
  s.files.map fun (name, t) => (Path.join s.directory name, t)

/-- What executing the simulator comes to: it is executed in the world that is there, and a
failure is one of the simulator. -/
inductive Executes (j : Journal) (p : Process) : Except Failure Unit × Journal → Prop
  | intro {before after : Journal} {r : Except Failure Unit} (result : Except Fault Report)
      (h : Wrote j before [])
      (events : after.events = before.events ++ [.execute p before.world result])
      (failure : ∀ f, r = .error f → f.isOfSimulator) : Executes j p (r, after)

theorem executes_execute (d : Display) (p : Process) :
  Executes j p (j.perform (Performance.execute (host b) d p))
  := by
  rw [Performance.execute, Performance.tell, perform_lift_bind, perform_lift_bind]
  have shown := wrote_report (j := j) b
    (d.notice (.info ("running: " ++ commandLine p.program p.args)))
  generalize ((host b).report _ j).2 = before at shown
  have execute : (host b).execute p before =
      ((b p before.world).1, ⟨(b p before.world).2,
        before.events ++ [.execute p before.world (b p before.world).1]⟩) := rfl
  rw [execute]
  rcases (b p before.world).1 with fault | report
  · apply Executes.intro (.error fault) shown rfl
    rintro _ ⟨⟩
    rfl
  · simp only [perform_lift_bind]
    split
    · next f failed =>
      apply Executes.intro (.ok report) shown rfl
      rintro _ ⟨⟩
      exact isOfSimulator_of_failure? failed
    · exact Executes.intro (.ok report) shown rfl nofun

theorem directory_process (w : World) (s : Simulator) (directory : Text) (env : List Variable) :
  (w.see (Performance.process s directory env)).directory = directory
  := by
  rw [Performance.process, World.see_bind, World.see_bind, World.see_bind]
  rfl

/-- What a simulation comes to: its files are not all written, or its directory is not found
behind them, or the simulator is executed in this directory. -/
inductive Simulates (j : Journal) (s : Simulation) : Except Failure Unit × Journal → Prop
  | refused {r : Except Failure Unit × Journal} (h : Saves j (paths s) r) (failed : r.1 ≠ .ok ()) :
      Simulates j s r
  | lost {j' : Journal} {fault : Fault} (h : Wrote j j' (paths s))
      (lost : j'.world.tree.path j'.world.here s.directory = .error fault) :
      Simulates j s (.error (.unreadable none fault.message), j')
  | executed {j' : Journal} {p : Process} {r : Except Failure Unit × Journal}
      (h : Wrote j j' (paths s))
      (place : j'.world.tree.path j'.world.here s.directory = .ok p.directory)
      (executed : Executes j' p r) : Simulates j s r

theorem simulates_simulation (d : Display) (verbose : Bool) (s : Simulation) :
  Simulates j s (j.perform (Performance.simulation (host b) d verbose s))
  := by
  have saved := saves_save (b := b) (j := j) d (paths s)
  rw [Performance.simulation, perform_bind]
  rw [paths] at saved
  generalize j.perform _ = r at saved
  cases saved with
  | refused split written => exact Simulates.refused (.refused split written) nofun
  | @all j' written =>
    simp only [perform_bind, perform_look]
    cases place : j'.world.see (Look.canonicalPath s.directory) with
    | error fault => exact Simulates.lost written place
    | ok directory =>
      simp only [perform_bind, perform_lift, perform_look]
      have shown := written.shown
        (wrote_report b (d.notices (Performance.environment s directory verbose).2))
      apply Simulates.executed shown (place.trans _) (executes_execute d _)
      rw [directory_process]

/-! ### Tasks -/

/-- What performing a task comes to. -/
inductive Performs (j : Journal) : Task → Except Failure Unit × Journal → Prop
  | print {j' : Journal} {t : Text} (h : Wrote j j' []) : Performs j (.print t) (.ok (), j')
  | save {xs : List (Text × Text)} {listed : Bool} {r : Except Failure Unit × Journal}
      (h : Saves j xs r) : Performs j (.save xs listed) r
  | simulate {s : Simulation} {r : Except Failure Unit × Journal} (h : Simulates j s r) :
      Performs j (.simulate s) r

theorem performs_perform (d : Display) (verbose : Bool) (task : Task) :
  Performs j task (j.perform (task.perform (host b) d verbose))
  := by
  cases task with
  | print t => exact Performs.print (wrote_print b t)
  | save xs listed =>
    apply Performs.save
    rw [Task.perform, perform_bind]
    have saved := saves_save (b := b) (j := j) d xs
    generalize j.perform _ = r at saved
    cases saved with
    | refused split written => exact Saves.refused split written
    | all written =>
      cases listed with
      | false => exact Saves.all written
      | true => exact Saves.all (written.shown (wrote_print b _))
  | simulate s => exact Performs.simulate (simulates_simulation d verbose s)

section

variable {p : Process} {before : World} {result : Except Fault Report}
  {r : Except Failure Unit × Journal} (start : j.events = [])
include start

/-- Nothing is executed when files are written. -/
theorem Wrote.not_mem_execute (h : Wrote j j' xs) :
  .execute p before result ∉ j'.events
  := by
  simp [h.events, start, Event.wrote]

theorem Saves.not_mem_execute (h : Saves j xs r) :
  .execute p before result ∉ r.2.events
  := by
  cases h with
  | all h => exact h.not_mem_execute start
  | refused split h => simpa [refuse] using h.not_mem_execute start

/-- If a program is executed when a task is performed, the files of a simulation have been
written, and it is executed in the directory of the simulation. -/
theorem Performs.of_execute {task : Task} (h : Performs j task r)
    (mem : .execute p before result ∈ r.2.events) :
  ∃ s j', task = .simulate s ∧ Wrote j j' (paths s) ∧ before = j'.world ∧
    before.tree.path before.here s.directory = .ok p.directory
  := by
  cases h with
  | print h => exact absurd mem (h.not_mem_execute start)
  | save h => exact absurd mem (h.not_mem_execute start)
  | @simulate s r h =>
    cases h with
    | refused h failed => exact absurd mem (h.not_mem_execute start)
    | lost h lost => exact absurd mem (h.not_mem_execute start)
    | @executed j' p' r h place executes =>
      obtain ⟨result', shown, events, -⟩ := executes
      have written := h.shown shown
      rw [events, List.mem_append] at mem
      obtain ⟨rfl, rfl, -⟩ : p = p' ∧ before = _ ∧ result = result' := by
        simpa using mem.resolve_left (written.not_mem_execute start)
      rw [← shown.tree_eq, ← shown.here] at place
      exact ⟨s, _, rfl, written, rfl, place⟩

end

/-- Whether a file has been refused. -/
def Refuses (j : Journal) : Prop :=
  ∃ path contents fault, .write path contents (.error fault) ∈ j.events

/-- Performing a task fails because a file is refused, because the directory of a simulation is
not found behind its files, or because the simulator fails. -/
theorem Performs.of_error {task : Task} {r : Except Failure Unit × Journal}
    (h : Performs j task r) (failed : r.1 = .error f) :
  Refuses r.2 ∨ f.isOfSimulator ∨ ∃ s fault, task = .simulate s ∧ Wrote j r.2 (paths s) ∧
    r.2.world.tree.path r.2.world.here s.directory = .error fault
  := by
  have refuses : ∀ {xs r}, Saves j xs r → r.1 ≠ .ok () → Refuses r.2 := by
    intro xs r h failed
    cases h with
    | all h => exact absurd rfl failed
    | @refused j' done rest x fault split h => exact ⟨x.1, x.2, fault, by simp [refuse]⟩
  cases h with
  | print h => cases failed
  | save h => exact Or.inl (refuses h (by simp [failed]))
  | @simulate s r h =>
    cases h with
    | refused h failed => exact Or.inl (refuses h failed)
    | lost h lost => exact Or.inr (Or.inr ⟨s, _, rfl, h, lost⟩)
    | executed h place executes =>
      obtain ⟨-, -, -, failure⟩ := executes
      exact Or.inr (Or.inl (failure f failed))

end Journal

/-! ### Invocations -/

/-- The result of an invocation in a world, with the journal of what it does there. -/
def Invocation.outcome (i : Invocation) (b : Behaviour) (w : World) :
    Except Failure Unit × Journal :=
  Journal.perform ⟨w, []⟩ (i.attempt (Journal.host b) (w.see (Display.choose i.color i.verbose)))

/-- The invocation of a command without options. -/
def Command.plain (c : Command) : Invocation := ⟨false, false, none, none, some c⟩

open Journal Attempt

variable (b : Behaviour) (i : Invocation) (w : World)

/-- An invocation comes to the same in the world alone, without a journal. -/
theorem attempt_hostWith :
  (i.attempt (World.hostWith b) (w.see (Display.choose i.color i.verbose))).run w =
    ((i.outcome b w).1, (i.outcome b w).2.world)
  := records_attempt i _ ⟨w, []⟩

/-- An invocation fails before anything is done, or the task that it prepares is performed. -/
theorem outcome_cases :
  (∃ f j, Wrote ⟨w, []⟩ j [] ∧ i.outcome b w = (.error f, j)) ∨
    ∃ task n j, Gives w [] i.prepare task n ∧ Wrote ⟨w, []⟩ j [] ∧ Performs j task (i.outcome b w)
  := by
  rw [Invocation.outcome, Invocation.attempt, perform_bind, perform_look]
  rcases prepared : w.see (i.prepare.run []) with ⟨f | task, notices⟩
  · exact Or.inl ⟨f, _, wrote_report b _, rfl⟩
  · exact Or.inr ⟨task, notices, _, prepared, wrote_report b _, performs_perform _ _ task⟩

section

variable {b i w} {j : Journal} {f : Failure}

/-- An invocation that succeeds ends with the code for success. -/
theorem carryOut_of_ok (h : i.outcome b w = (.ok (), j)) :
  i.carryOut (Journal.host b) ⟨w, []⟩ = (0, j)
  := by
  rw [Invocation.outcome, perform] at h
  rw [Invocation.carryOut, bind_apply, look_apply, bind_apply, h]
  rfl

/-- An invocation that fails shows its failure and ends with the code for failure. -/
theorem carryOut_of_error (h : i.outcome b w = (.error f, j)) :
  ∃ t, i.carryOut (Journal.host b) ⟨w, []⟩ = (failureCode, ((Journal.host b).report t j).2)
  := by
  rw [Invocation.outcome, perform] at h
  rw [Invocation.carryOut, bind_apply, look_apply, bind_apply, h]
  exact ⟨_, rfl⟩

end

end Testbench
