import Testbench.Host.World
import Mathlib.Tactic.Common

/-!
# Journals

A `Journal` is a world together with what has been done in it: which files were written, which
were refused, and which programs were executed in which state of the world.  It is a host like
the world, for any behaviour of the programs that are executed, and whatever the program does
in a journal it does in the world alone.
-/

namespace Testbench

/-- Something that is done in a world: a file is written or refused, or a program is executed
in a state of the world. -/
inductive Event where
  | write (path contents : Text) (result : Except Fault Unit)
  | execute (p : Process) (before : World) (result : Except Fault Report)

/-- What programs do when they are executed. -/
abbrev Behaviour := Process → StateM World (Except Fault Report)

/-- A world with what has been done in it. -/
structure Journal where
  world : World
  events : List Event

/-- A world with a single file, which is in the current directory. -/
def World.single (name contents : Text) : World :=
  ⟨⟨[([name], .file (some contents))]⟩, [], [], [], []⟩

/-- No program is there. -/
def Behaviour.absent : Behaviour := fun _ w => (.error .notFound, w)

namespace Journal

/-- Journals as hosts. -/
def host (b : Behaviour) : Host (StateM Journal) where
  look l := fun j => (j.world.see l, j)
  write path contents := fun j =>
    let (r, w) := j.world.write path contents
    (r, ⟨w, j.events ++ [.write path contents r]⟩)
  execute p := fun j =>
    let (r, w) := b p j.world
    (r, ⟨w, j.events ++ [.execute p j.world r]⟩)
  print t := fun j => ((), { j with world := { j.world with output := j.world.output ++ t } })
  report t := fun j => ((), { j with world := { j.world with errors := j.world.errors ++ t } })

/-! ### What is done in the world -/

/-- A computation in journals does what another one does in worlds. -/
def Records {α : Type} (x : StateM Journal α) (y : StateM World α) : Prop :=
  ∀ j : Journal, y j.world = ((x j).1, (x j).2.world)

section

variable {α β : Type} {b : Behaviour}

theorem Records.pure (a : α) :
  Records (pure a) (pure a)
  := fun _ => rfl

theorem Records.bind {x : StateM Journal α} {y : StateM World α} {f : α → StateM Journal β}
    {g : α → StateM World β} (h : Records x y) (hf : ∀ a, Records (f a) (g a)) :
  Records (x >>= f) (y >>= g)
  := by
  intro j
  have first := h j
  have second := hf (x j).1 (x j).2
  change (y j.world >>= fun (a, w) => g a w) = _
  rw [first]
  exact second

theorem records_look (l : Look α) :
  Records ((host b).look l) ((World.hostWith b).look l)
  := fun _ => rfl

theorem records_write (path contents : Text) :
  Records ((host b).write path contents) ((World.hostWith b).write path contents)
  := fun _ => rfl

theorem records_execute (p : Process) :
  Records ((host b).execute p) ((World.hostWith b).execute p)
  := fun _ => rfl

theorem records_print (t : Text) :
  Records ((host b).print t) ((World.hostWith b).print t)
  := fun _ => rfl

theorem records_report (t : Text) :
  Records ((host b).report t) ((World.hostWith b).report t)
  := fun _ => rfl

/-- What follows a part that may fail is recorded if the part is. -/
theorem Records.bindRun {x : Performance (StateM Journal) α} {y : Performance (StateM World) α}
    {f : α → Performance (StateM Journal) β} {g : α → Performance (StateM World) β}
    (h : Records x.run y.run) (hf : ∀ a, Records (f a).run (g a).run) :
  Records (x >>= f).run (y >>= g).run
  := by
  rw [ExceptT.run_bind, ExceptT.run_bind]
  apply Records.bind h
  rintro (e | a)
  · exact Records.pure _
  · exact hf a

/-- A part that cannot fail is recorded as such. -/
theorem Records.lift {x : StateM Journal α} {y : StateM World α} (h : Records x y) :
  Records (liftM x : Performance (StateM Journal) α).run
    (liftM y : Performance (StateM World) α).run
  := h.bind fun _ => Records.pure _

theorem Records.error (f : Failure) :
  Records (throw f : Performance (StateM Journal) α).run
    (throw f : Performance (StateM World) α).run
  := Records.pure _

theorem records_save (d : Display) (files : List (Text × Text)) :
  Records (Performance.save (host b) d files).run
    (Performance.save (World.hostWith b) d files).run
  := by
  induction files with
  | nil => exact Records.pure _
  | cons x files ih =>
    apply Records.bindRun (records_write x.1 x.2).lift
    rintro (f | u)
    · exact Records.error _
    · apply Records.bindRun (records_report _).lift
      intro _
      exact ih

theorem records_execute_run (d : Display) (p : Process) :
  Records (Performance.execute (host b) d p).run
    (Performance.execute (World.hostWith b) d p).run
  := by
  apply Records.bindRun (records_report _).lift
  intro _
  apply Records.bindRun (records_execute p).lift
  rintro (f | r)
  · exact Records.error _
  · apply Records.bindRun (records_print _).lift
    intro _
    apply Records.bindRun (records_report _).lift
    intro _
    apply Records.bindRun (records_print _).lift
    intro _
    split
    · exact Records.error _
    · exact Records.pure _

theorem records_simulation (d : Display) (verbose : Bool) (s : Simulation) :
  Records (Performance.simulation (host b) d verbose s).run
    (Performance.simulation (World.hostWith b) d verbose s).run
  := by
  apply Records.bindRun (records_save d _)
  intro _
  apply Records.bindRun (records_look _).lift
  rintro (f | directory)
  · exact Records.error _
  · apply Records.bindRun (records_report _).lift
    intro _
    apply Records.bindRun (records_look _).lift
    intro p
    exact records_execute_run d p

theorem records_perform (d : Display) (verbose : Bool) (task : Task) :
  Records (task.perform (host b) d verbose).run (task.perform (World.hostWith b) d verbose).run
  := by
  cases task with
  | print t => exact (records_print t).lift
  | save files listed =>
    apply Records.bindRun (records_save d files)
    intro _
    cases listed with
    | false => exact Records.pure _
    | true => exact (records_print _).lift
  | simulate s => exact records_simulation d verbose s

theorem records_attempt (i : Invocation) (d : Display) :
  Records (i.attempt (host b) d).run (i.attempt (World.hostWith b) d).run
  := by
  apply Records.bindRun (records_look _).lift
  rintro ⟨f | task, notices⟩
  · apply Records.bindRun (records_report _).lift
    intro _
    exact Records.error f
  · apply Records.bindRun (records_report _).lift
    intro _
    exact records_perform d i.verbose task

theorem records_carryOut (i : Invocation) :
  Records (i.carryOut (host b)) (i.carryOut (World.hostWith b))
  := by
  apply Records.bind (records_look _)
  intro d
  apply Records.bind (records_attempt i d)
  rintro (f | u)
  · apply Records.bind (records_report _)
    intro _
    exact Records.pure _
  · exact Records.pure _

/-- Whatever the program does in a journal it does in the world. -/
theorem records_runProgram (args : List Text) :
  Records (runProgram (host b) args) (runProgram (World.hostWith b) args)
  := by
  rw [runProgram, runProgram]
  rcases Invocation.ofArguments args with refusal | i
  · cases refusal with
    | help topic => exact (records_print _).bind fun _ => Records.pure _
    | usage => exact (records_report _).bind fun _ => Records.pure _
  · exact records_carryOut i

end

end Journal

end Testbench
