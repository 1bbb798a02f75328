import Testbench.Proofs.Command.Output
import Testbench.Proofs.Command.Performance

/-!
# The source of a bench

`generate` writes the bench of a source into a directory, with the record and the makefile if
they are asked for.  No record and no makefile has the name of a source, but the bench can have
it.  Hence a source that is no link is what it was unless the bench has been written over it, and
this is what happens whenever the path of the bench leads to the source.  A link can lead to any
of the files.
-/

namespace Testbench

open Journal Vhdl

variable {w : World} {b : Behaviour} {i : Invocation} {file path t : Text}
  {record makefile : Bool}

/-- A record and a makefile are not at the place of a source, whatever directory they are in. -/
theorem destination_ne_of_ofPath? {e : Entity} {name : Text} (here : Location)
    (kind : SourceKind.ofPath? file = some .vhdl)
    (h : name = recordFile e ∨ name = Makefile.fileName) :
  Tree.destination here file ≠ Tree.destination here (Path.join path name)
  := by
  intro eq
  obtain ⟨own, named⟩ := SourceKind.exists_fileName?_of_ofPath? kind
  have isFileName : Path.IsFileName name := by
    rcases h with rfl | rfl
    · exact isFileName_recordFile e
    · exact isFileName_makefile
  obtain rfl := Tree.eq_of_destination_eq named (isFileName.fileName?_join path) eq
  rw [SourceKind.ofPath?_eq_of_fileName? named] at kind
  rcases h with rfl | rfl
  · rw [ofPath?_recordFile] at kind
    cases kind
  · exact absurd kind (by decide)

/-- The files that `generate` has written: none, or the bench and others that are not at the place
of the source. -/
theorem exists_wrote_of_generate
    (asked : i.command = some (.generate file (some path) record makefile))
    (kind : SourceKind.ofPath? file = some .vhdl) (read : w.tree.text w.here file = .ok t) :
  ∃ done j, Wrote ⟨w, []⟩ j done ∧ (i.outcome b w).2.world = j.world ∧
    (∀ x, Event.wrote x ∈ (i.outcome b w).2.events ↔ x ∈ done) ∧
    (done = [] ∨ ∃ config e bench more, i.configuration w = .ok config ∧
      Entity.ofSource t = .ok e ∧ Bench.generate e config = .ok bench ∧
      done = (Path.join path (benchFile e config), bench) :: more ∧
      ∀ x ∈ more, Tree.destination w.here file ≠ Tree.destination w.here x.1)
  := by
  obtain ⟨f, j, shown, eq⟩ | ⟨task, n, j, prepared, shown, performs⟩ :=
    outcome_cases b i w
  · rw [eq]
    exact ⟨[], j, shown, rfl, fun x => shown.wrote_mem_iff rfl, Or.inl rfl⟩
  · generalize i.outcome b w = r at performs
    obtain ⟨_, rfl⟩ | ⟨c, config, m, asked', found, h⟩ := of_prepare prepared
    · cases performs with
      | print h =>
        have shown := shown.trans h
        exact ⟨[], _, shown, rfl, fun x => shown.wrote_mem_iff rfl, Or.inl rfl⟩
    · obtain rfl := Option.some.inj (asked.symm.trans asked')
      obtain ⟨input, bench, more, isRead, generated, names, rfl⟩ := of_prepareGenerate_some h
      obtain rfl := Except.ok.inj (isRead.text.symm.trans read)
      have entity := isRead.entity (Option.some.inj (isRead.kind.symm.trans kind))
      cases performs with
      | save saves =>
        obtain ⟨done, rest, j', split, wrote, world, events⟩ := saves.exists_wrote
        have written := shown.trans wrote
        refine ⟨done, j', written, world, ?_, ?_⟩
        · exact fun x => (events x).trans (written.wrote_mem_iff rfl)
        cases done with
        | nil => exact Or.inl rfl
        | cons x done =>
          obtain ⟨rfl, others⟩ := List.cons.inj split
          refine Or.inr ⟨config, input.entity, bench, done, found, entity, generated, rfl, ?_⟩
          intro y hy
          have mem : y ∈ more.map fun x => (Path.join path x.1, x.2) := by
            rw [others]
            exact List.mem_append_left rest hy
          obtain ⟨z, hz, rfl⟩ := List.mem_map.1 mem
          exact destination_ne_of_ofPath? w.here kind (names z hz)

/-- The source is what it was if no other text has been written to where its path leads. -/
theorem text_of_generate
    (asked : i.command = some (.generate file (some path) record makefile))
    (kind : SourceKind.ofPath? file = some .vhdl) (read : w.tree.text w.here file = .ok t)
    (same : ∀ x, Event.wrote x ∈ (i.outcome b w).2.events →
      w.tree.Leads (Tree.destination w.here file) (Tree.destination w.here x.1) → x.2 = t) :
  (i.outcome b w).2.world.tree.text w.here file = .ok t
  := by
  obtain ⟨done, j, written, world, events, -⟩ := exists_wrote_of_generate (b := b) asked kind read
  rw [world]
  exact Tree.text_of_writeAll written.tree read fun x hx => same x ((events x).2 hx)

/-- The path of the bench of an entity that is written into a directory. -/
def benchPath (path : Text) (e : Entity) (config : Config) : Text :=
  Path.join path (benchFile e config)

/-- What is read at the path of a source that is no link when `generate` has ended: the source if
no bench has been written, and the bench if it has been written to the place of the source. -/
theorem text_cases_of_generate
    (asked : i.command = some (.generate file (some path) record makefile))
    (kind : SourceKind.ofPath? file = some .vhdl) (read : w.tree.text w.here file = .ok t)
    (plain : w.tree.IsPlain (Tree.destination w.here file)) :
  ((∀ x, Event.wrote x ∉ (i.outcome b w).2.events) ∧
      (i.outcome b w).2.world.tree.text w.here file = .ok t) ∨
    ∃ config e bench name, i.configuration w = .ok config ∧ Entity.ofSource t = .ok e ∧
      Bench.generate e config = .ok bench ∧ Path.fileName? (benchPath path e config) = some name ∧
      Event.wrote (benchPath path e config, bench) ∈ (i.outcome b w).2.events ∧
      (i.outcome b w).2.world.tree.text w.here file =
        .ok (if Tree.destination w.here file = Tree.destination w.here (benchPath path e config)
          then bench else t)
  := by
  obtain ⟨done, j, written, world, events, cases⟩ :=
    exists_wrote_of_generate (b := b) asked kind read
  rw [world]
  obtain rfl | ⟨config, e, bench, more, found, entity, generated, rfl, others⟩ := cases
  · left
    refine ⟨fun x hx => ?_, ?_⟩
    · simpa using (events x).1 hx
    · rw [written.tree_eq]
      exact read
  · right
    obtain ⟨middle, first, further⟩ := bind_eq_ok.1 written.tree
    have first := Tree.written_of_write first
    obtain ⟨name, named⟩ := first.named
    refine ⟨config, e, bench, name, found, entity, generated, named,
      (events _).2 List.mem_cons_self, ?_⟩
    apply Tree.text_of_writeAll further (first.text_of_isPlain plain read)
    intro x hx leads
    have still := first.isPlain plain (Tree.file_of_text plain read)
    exact absurd (still.eq_of_leads leads) (others x hx)

/-- The source is what it was if no other text has been written to where its path leads.  A
source that is no link is what it was exactly if no other text has been written to its place as
the bench, and so it is if the bench has another file name. -/
theorem text_generate_iff
    (asked : i.command = some (.generate file (some path) record makefile))
    (kind : SourceKind.ofPath? file = some .vhdl) (read : w.tree.text w.here file = .ok t) :
  ((∀ x, Event.wrote x ∈ (i.outcome b w).2.events →
        w.tree.Leads (Tree.destination w.here file) (Tree.destination w.here x.1) → x.2 = t) →
      (i.outcome b w).2.world.tree.text w.here file = .ok t) ∧
    (w.tree.IsPlain (Tree.destination w.here file) →
      ((i.outcome b w).2.world.tree.text w.here file = .ok t ↔
        ∀ config e bench, i.configuration w = .ok config → Entity.ofSource t = .ok e →
          Bench.generate e config = .ok bench →
          Event.wrote (benchPath path e config, bench) ∈ (i.outcome b w).2.events →
          Tree.destination w.here file = Tree.destination w.here (benchPath path e config) →
          bench = t) ∧
      ((∀ config e, i.configuration w = .ok config → Entity.ofSource t = .ok e →
          Path.fileName? (benchPath path e config) ≠ Path.fileName? file) →
        (i.outcome b w).2.world.tree.text w.here file = .ok t))
  := by
  refine ⟨text_of_generate asked kind read, ?_⟩
  intro plain
  obtain ⟨none, kept⟩ | ⟨config, e, bench, name, found, entity, generated, named, wrote, text⟩ :=
    text_cases_of_generate (b := b) asked kind read plain
  · simp [none, kept]
  · rw [text]
    constructor
    · constructor
      · intro kept config' e' bench' found' entity' generated' _ there
        obtain rfl := Except.ok.inj (found.symm.trans found')
        obtain rfl := Except.ok.inj (entity.symm.trans entity')
        obtain rfl := Except.ok.inj (generated.symm.trans generated')
        rw [if_pos there] at kept
        exact Except.ok.inj kept
      · intro same
        split
        · next there => rw [same config e bench found entity generated wrote there]
        · rfl
    · intro differ
      obtain ⟨own, ownNamed⟩ := SourceKind.exists_fileName?_of_ofPath? kind
      rw [if_neg]
      intro there
      apply differ config e found entity
      rw [named, ownNamed, Tree.eq_of_destination_eq ownNamed named there]

/-- A source that the bench does not have the name of is what it was. -/
theorem text_generate_alu :
  ((Command.generate "alu.vhd" (some ".") true true).plain.outcome .absent
    (.single "alu.vhd" "entity alu is end;")).2.world.tree.text [] "alu.vhd" =
      .ok "entity alu is end;"
  := by
  have there : (World.single "alu.vhd" "entity alu is end;").tree.node?
      (Tree.destination [] "alu.vhd") = some (.file (some "entity alu is end;")) := by decide
  apply ((text_generate_iff (w := .single "alu.vhd" "entity alu is end;") rfl (by decide)
    (by decide)).2 (Tree.isPlain_of_file there)).2
  intro config e found entity
  have standard : (Command.generate "alu.vhd" (some ".") true true).plain.configuration
      (.single "alu.vhd" "entity alu is end;") = .ok Config.standard := by decide +kernel
  have alu : (Entity.ofSource "entity alu is end;").map (·.name.text) = .ok "alu" := by
    decide +kernel
  obtain rfl := Except.ok.inj (found.symm.trans standard)
  have name : e.name.text = "alu" := by
    rw [entity] at alu
    exact Except.ok.inj alu
  rw [benchPath, benchFile, Bench.topName, name]
  decide

/-- A source with the name of its bench is replaced. -/
theorem not_text_generate :
  ¬∀ (b : Behaviour) (i : Invocation) (w : World) (file path t : Text) (record makefile : Bool),
    i.command = some (.generate file (some path) record makefile) →
    SourceKind.ofPath? file = some .vhdl → w.tree.text w.here file = .ok t →
    (i.outcome b w).2.world.tree.text w.here file = .ok t
  := by
  intro kept
  have same := kept .absent (Command.generate "alu_tb.vhd" (some ".") false false).plain
    (.single "alu_tb.vhd" "entity alu is end;") "alu_tb.vhd" "." "entity alu is end;" false false
    rfl (by decide) (by decide)
  revert same
  decide +kernel

end Testbench
