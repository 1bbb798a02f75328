import Testbench.Proofs.Command.Output
import Testbench.Proofs.Command.Performance

/-!
# Simulations

The directory of a simulation begins at the root, so that it is found once the files of the
simulation have been written.  The files have different names; hence all of them are there when
the simulator is executed.  None but the copy of the source has the name of the source, so that
the source is what it was, too, if it is no link.  A link can lead to the bench or to the record,
whatever its own name is.
-/

namespace Testbench

open Journal Text Vhdl

variable {w : World} {b : Behaviour} {i : Invocation} {j : Journal} {config : Config}
  {s : Simulation} {file bench : Text} {directory command : Option Text} {input : Input}
  {copy : List (Text × Text)}

namespace Simulation.IsPrepared

section

variable (h : s.IsPrepared w config file directory input bench copy)
include h

/-! ### The directory -/

theorem isAbsolute :
  Path.isAbsolute s.directory
  := by
  rw [h.place, World.simulationPlace]
  by_cases absolute : Path.isAbsolute (directory.getD simulationDirectory)
  · rw [Path.join, if_pos absolute]
    exact absolute
  · rw [Path.isAbsolute_join absolute]
    rfl

theorem directory_ne_nil :
  s.directory ≠ []
  := by
  intro empty
  simpa [empty, Path.isAbsolute] using h.isAbsolute

theorem start_eq (here : Location) :
  Tree.start here s.directory = []
  := by
  rw [Tree.start, if_pos h.isAbsolute]

/-- There are directories on the way to that of the simulation when its files have been
written. -/
theorem through (written : Wrote ⟨w, []⟩ j (paths s)) :
  j.world.tree.Through [] (Path.parts s.directory)
  := by
  have name := isFileName_recordFile input.entity
  have mem : (Path.join s.directory (recordFile input.entity), recordText input.entity) ∈
      paths s := by
    simp [paths, h.files, generatedFiles]
  have through := Tree.through_of_writeAll written.tree mem
  rw [Tree.start_join _ name.not_isAbsolute, h.start_eq, Path.parts_join name.not_isAbsolute,
    name.parts, List.dropLast_concat] at through
  exact through rfl

/-- The directory of a simulation is found when its files have been written. -/
theorem path_directory (written : Wrote ⟨w, []⟩ j (paths s)) :
  ∃ place, j.world.tree.path j.world.here s.directory = .ok place
  := by
  refine ⟨_, Tree.path_of_through ?_ h.directory_ne_nil⟩
  rw [h.start_eq]
  exact h.through written

/-! ### The files -/

variable (kind : input.kind = .vhdl)
include kind

/-- The files of the simulation of a source are the bench, the record and the copy. -/
theorem files_eq {name : Text} (named : Path.fileName? file = some name) :
  s.files = generatedFiles input.entity config bench ++ [(name, input.text)]
  := by
  rw [h.files, (h.copied kind).1, h.read.path, named]
  rfl

/-- The names of the files are different, also up to case. -/
theorem pairwise_files :
  s.files.Pairwise fun x y => ¬x.1.sameWord y.1
  := by
  obtain ⟨copy, others⟩ := h.copied kind
  rw [h.files, copy, List.pairwise_append]
  refine ⟨?_, List.pairwise_singleton _ _, ?_⟩
  · rw [generatedFiles, List.pairwise_pair]
    exact not_sameWord_recordFile input.entity config
  · intro x hx y hy
    rw [List.mem_singleton.1 hy]
    exact others x hx

variable (plain : '/' ∉ config.bench.suffix)
include plain

theorem isFileName_of_mem_files {x : Text × Text} (hx : x ∈ s.files) :
  Path.IsFileName x.1
  := by
  obtain ⟨name, named⟩ := SourceKind.exists_fileName?_of_ofPath? h.read.kind
  rw [h.files_eq kind named] at hx
  simp only [generatedFiles, List.cons_append, List.nil_append, List.mem_cons, List.not_mem_nil,
    or_false] at hx
  rcases hx with rfl | rfl | rfl
  · exact isFileName_benchFile input.entity plain
  · exact isFileName_recordFile input.entity
  · exact (Path.fileName?_eq_some_iff.1 named).2

/-- No generated file is at the place of the source. -/
theorem destination_ne {x : Text × Text} (hx : x ∈ generatedFiles input.entity config bench) :
  Tree.destination w.here file ≠ Tree.destination w.here (Path.join s.directory x.1)
  := by
  intro eq
  obtain ⟨name, named⟩ := SourceKind.exists_fileName?_of_ofPath? h.read.kind
  have mem : x ∈ s.files := by
    rw [h.files]
    exact List.mem_append_left _ hx
  have isFileName := h.isFileName_of_mem_files kind plain mem
  obtain rfl := Tree.eq_of_destination_eq named (isFileName.fileName?_join _) eq
  have differs := (h.copied kind).2 x hx
  rw [h.read.path, named] at differs
  exact differs (sameWord_self _)

variable (written : Wrote ⟨w, []⟩ j (paths s))
include written

/-- Every file is there when all of them have been written. -/
theorem text_of_mem_files {x : Text × Text} (hx : x ∈ s.files) :
  j.world.tree.text j.world.here (Path.join s.directory x.1) = .ok x.2
  := by
  have isFileName := fun y hy => h.isFileName_of_mem_files kind plain (x := y) hy
  apply Tree.text_of_file
  · apply Tree.reaches_join _ h.directory_ne_nil (isFileName x hx).toIsPart
    rw [h.start_eq]
    exact h.through written
  · rw [written.here]
    have distinct : (paths s).Pairwise fun y z =>
        Tree.destination w.here y.1 ≠ Tree.destination w.here z.1 := by
      apply List.pairwise_map.2
      apply (h.pairwise_files kind).imp_of_mem
      intro y z hy hz differ eq
      rw [Tree.destination_join_of_isFileName _ (isFileName y hy),
        Tree.destination_join_of_isFileName _ (isFileName z hz), List.append_singleton_inj] at eq
      rw [eq.2] at differ
      exact differ (sameWord_self _)
    exact Tree.node?_of_writeAll written.tree distinct (List.mem_map_of_mem hx)

/-- The source is as before when the files have been written, unless it is a link to one of the
generated files. -/
theorem text_source :
  j.world.tree.text j.world.here file = .ok input.text ∨
    ∃ x ∈ generatedFiles input.entity config bench,
      w.tree.IsLinkTo w.here file (Path.join s.directory x.1)
  := by
  rw [or_iff_not_imp_right]
  intro noLink
  rw [written.here]
  apply Tree.text_of_writeAll written.tree h.read.text
  intro y hy leads
  obtain ⟨x, hx, rfl⟩ := List.mem_map.1 hy
  rw [h.files, List.mem_append] at hx
  rcases hx with hx | hx
  · -- what leads to another place does so through a link
    have link := Tree.exists_link_of_leads leads (h.destination_ne kind plain hx)
    exact absurd ⟨x, hx, link, leads⟩ noLink
  · rw [(h.copied kind).1] at hx
    rw [List.mem_singleton.1 hx]

end

end Simulation.IsPrepared

/-! ### When the simulator is executed -/

/-- A world with a source in a directory, and with a link to it. -/
def World.linked (directory name link contents : Text) : World :=
  ⟨⟨[([directory], .directory), ([directory, name], .file (some contents)),
    ([link], .link (Path.join directory name))]⟩, [], [], [], []⟩

end Testbench
