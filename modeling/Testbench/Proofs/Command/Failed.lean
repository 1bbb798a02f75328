import Testbench.Proofs.Command.Simulation

/-!
# Commands that fail

Whatever can fail does so before the first file is written, but for the writing itself and the
simulator.  A command that fails for any other reason has therefore written nothing, and a
command that only reads never writes.
-/

namespace Testbench

open Journal Attempt

variable {w : World} {b : Behaviour} {i : Invocation} {f : Failure} {n : List Notice}
  {task : Task}

/-- Nothing has been done in a world, and its files are as before. -/
def Journal.IsUntouched (j : Journal) (w : World) : Prop := j.events = [] ∧ j.world.tree = w.tree

theorem Journal.Wrote.isUntouched {j : Journal} (h : Wrote ⟨w, []⟩ j []) :
  j.IsUntouched w
  := ⟨h.events, h.tree_eq⟩

/-- An invocation that fails has done nothing, unless a file is refused or the simulator
fails. -/
theorem isUntouched_of_error (failed : (i.outcome b w).1 = .error f) (other : ¬f.isOfSimulator)
    (accepted : ¬(i.outcome b w).2.Refuses) :
  (i.outcome b w).2.IsUntouched w
  := by
  obtain ⟨f, j, shown, eq⟩ | ⟨task, n, j, prepared, shown, performs⟩ := outcome_cases b i w
  · rw [eq]
    exact shown.isUntouched
  · obtain refuses | simulator | ⟨s, fault, rfl, wrote, lost⟩ := performs.of_error failed
    · contradiction
    · contradiction
    · obtain ⟨config, file, directory, command, input, bench, copy, -, -, simulation⟩ :=
        isPrepared_of_prepare prepared
      obtain ⟨place, found⟩ := simulation.path_directory (shown.trans wrote)
      rw [found] at lost
      cases lost

/-! ### Commands that only read -/

/-- Whether a command only reads: `check`, and `generate` without a directory. -/
def Command.isReadOnly : Command → Bool
  | .check _ _ => true
  | .generate _ none _ _ => true
  | _ => false

/-- A command that only reads has something to print as its task. -/
theorem exists_eq_print {c : Command} {n' : List Notice} (h : Gives w [] i.prepare task n')
    (command : i.command = some c) (readOnly : c.isReadOnly) :
  ∃ t, task = .print t
  := by
  obtain printed | ⟨c', config, m, command', -, h⟩ := of_prepare h
  · exact printed
  · obtain rfl := Option.some.inj (command.symm.trans command')
    cases c with
    | check file bench => exact of_prepareCheck h
    | generate file directory record makefile =>
      cases directory with
      | none => exact of_prepareGenerate_none h
      | some path => cases readOnly
    | parse file output => cases readOnly
    | run file directory command => cases readOnly

theorem isUntouched_of_isReadOnly {c : Command} (command : i.command = some c)
    (readOnly : c.isReadOnly) :
  (i.outcome b w).2.IsUntouched w
  := by
  obtain ⟨f, j, shown, eq⟩ | ⟨task, n, j, prepared, shown, performs⟩ :=
    outcome_cases b i w
  · rw [eq]
    exact shown.isUntouched
  · obtain ⟨t, rfl⟩ := exists_eq_print prepared command readOnly
    generalize i.outcome b w = r at performs
    cases performs with
    | print h => exact (shown.trans h).isUntouched

/-! ### The program -/

/-- The code with which the program ends in a world, with the journal of what it does there. -/
def programOutcome (b : Behaviour) (args : List Text) (w : World) : Nat × Journal :=
  runProgram (Journal.host b) args ⟨w, []⟩

/-- The failure of the command that the program carries out, if there is one. -/
def commandFailure? (b : Behaviour) (args : List Text) (w : World) : Option Failure :=
  match Invocation.ofArguments args with
  | .ok i => errorOf? (i.outcome b w).1
  | .error _ => none

end Testbench
