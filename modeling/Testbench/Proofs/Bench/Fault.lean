import Testbench.Proofs.Bench.Assembly
import Testbench.Proofs.Stimulus.Plan
import Testbench.Proofs.Vhdl.Verbatim

/-!
# Why there is no bench

A bench fails for one of three reasons: a port or a generic has the name of the entity, a generic
has no value, or a value of a sequence does not fit its port.  Of several reasons the first in this
order is reported, and of several of one kind the first in the order in which they are written.
The clock, the reset, the initial values and the table of combinations always fit, and so do the
sequences that are made for an entity.
-/

namespace Testbench.Bench

open Text Vhdl Stimulus Layout

variable {e : Entity} {config : Config} {roles : Roles} {plan : Plan} {p : Port} {v : Value}
  {style : Style} {i : Nat}

/-! ### Reasons -/

/-- Whether a generic has a value: a configured one, a default, or one named for its type. -/
def hasValue (config : Config) (g : Generic) : Bool :=
  config.generics.entries.any (fun (key, _) => key.sameWord g.name.text) || g.default.isSome ||
    (placeholder? g.type).isSome

/-- The values of the sequences of a plan with their ports, in the order in which they are
written. -/
def sequenceValues (e : Entity) (plan : Plan) : List (Port × Value) :=
  (drivers e plan).flatMap fun (p, steps) => steps.map fun s => (p, s.value)

/-- The first name that is the name of the entity. -/
def sharedFault? (e : Entity) : Option Error :=
  (e.interfaceNames.find? fun n => n.same e.name).map fun n => .sharedName n.text e.name.text

/-- The first generic without a value. -/
def valueFault? (e : Entity) (config : Config) : Option Error :=
  (e.generics.find? fun g => !hasValue config g).map fun g => .missingValue g.type g.name.text

/-- The first value of a sequence that does not fit its port. -/
def sequenceFault? (e : Entity) (plan : Plan) : Option Error :=
  ((sequenceValues e plan).find? fun s => !s.2.fits s.1.type).map fun s =>
    .misfit s.1.type s.2 s.1.name.text

/-- The first reason why there is no bench, if there is one. -/
def firstFault? (e : Entity) (config : Config) (plan : Plan) : Option Error :=
  ((sharedFault? e).or (valueFault? e config)).or (sequenceFault? e plan)

/-! ### Values -/

theorem errorOf?_constantValue (config : Config) (g : Generic) :
  errorOf? (constantValue config g) =
    if hasValue config g then none else some (.missingValue g.type g.name.text)
  := by
  have configured : config.generics.entries.any (fun (key, _) => key.sameWord g.name.text) =
      (config.generic? g.name.text).isSome := by
    rw [Config.generic?, Option.isSome_map, List.isSome_find?]
  rw [constantValue, hasValue, configured]
  cases config.generic? g.name.text <;> cases g.default <;> cases placeholder? g.type <;> rfl

theorem errorOf?_render (v : Value) (p : Port) :
  errorOf? (render v p) = if v.fits p.type then none else some (.misfit p.type v p.name.text)
  := by
  rw [render]
  split <;> rfl

theorem errorOf?_assign (style : Style) (depth : Nat) (p : Port) (v : Value) :
  errorOf? (assign style depth p v) =
    if v.fits p.type then none else some (.misfit p.type v p.name.text)
  := by
  exact (errorOf?_bind_pure _ _).trans (errorOf?_render v p)

/-- The assignment of a logic value to a port of one bit is written. -/
theorem errorOf?_assign_logic (hp : p.type.isScalarBit) (style : Style) (depth : Nat) (b : Bool) :
  errorOf? (assign style depth p (.logic p.type b)) = none
  := by
  rw [errorOf?_assign, if_pos (fits_logic hp b)]

theorem errorOf?_initialValue (p : Port) :
  errorOf? (initialValue p) = none
  := by
  rw [initialValue]
  split
  · rfl
  · rfl
  · rw [render, if_pos (fits_initial _)]
    rfl

/-- The first member of a list without a property, as an error. -/
theorem findSome?_ite {α β : Type} (q : α → Bool) (f : α → β) (xs : List α) :
  xs.findSome? (fun x => if q x then none else some (f x)) = (xs.find? fun x => !q x).map f
  := by
  induction xs with
  | nil => rfl
  | cons x xs ih =>
    rw [List.findSome?_cons, List.find?_cons]
    cases q x with
    | true => exact ih
    | false => rfl

/-! ### Parts of a bench -/

theorem errorOf?_constants (e : Entity) (config : Config) (style : Style) :
  errorOf? (constants e config style) = valueFault? e config
  := by
  rw [constants, errorOf?_bind_pure, errorOf?_mapM]
  simp only [errorOf?_bind_pure, errorOf?_constantValue]
  rw [findSome?_ite]
  rfl

theorem errorOf?_signals (e : Entity) (style : Style) :
  errorOf? (signals e style) = none
  := by
  rw [signals, errorOf?_bind_pure, errorOf?_mapM, List.findSome?_eq_none_iff]
  intro p _
  rw [errorOf?_bind_pure, errorOf?_initialValue]

/-- What is written for a port is written if it is there and can be written. -/
theorem errorOf?_paragraph {index : Option Nat} {write : Port → Except Error Text}
    (h : ∀ i p, index = some i → e.ports[i]? = some p → errorOf? (write p) = none) :
  errorOf? (paragraph e index write) = none
  := by
  rw [paragraph.eq_def]
  split
  · next p found =>
    obtain ⟨i, rfl, here⟩ := Option.bind_eq_some_iff.1 found
    have written := h i p rfl here
    obtain ⟨t, eq⟩ := errorOf?_eq_none_iff.1 written
    rw [eq]
    rfl
  · rfl

theorem errorOf?_clockProcess (hp : p.type.isScalarBit) (e : Entity) (style : Style)
    (settings : Settings) (done : Text) :
  errorOf? (clockProcess e style settings done p) = none
  := by
  apply errorOf?_bind_eq_none (errorOf?_assign_logic hp style 3 false)
  intro low
  apply errorOf?_bind_eq_none (errorOf?_assign_logic hp style 3 true)
  intro high
  rfl

theorem errorOf?_resetProcess (hp : p.type.isScalarBit) (e : Entity) (style : Style)
    (settings : Settings) (activeLow : Bool) :
  errorOf? (resetProcess e style settings activeLow p) = none
  := by
  apply errorOf?_bind_eq_none (errorOf?_assign_logic hp style 2 _)
  intro active
  apply errorOf?_bind_eq_none (errorOf?_assign_logic hp style 2 _)
  intro released
  rfl

/-- The release of the reset is awaited without an error. -/
theorem errorOf?_startStatements
    (h : ∀ i p, roles.reset = some i → e.ports[i]? = some p → p.type.isScalarBit) (style : Style) :
  errorOf? (startStatements e style roles) = none
  := by
  rw [startStatements.eq_def]
  split
  · next p found =>
    obtain ⟨i, reset, here⟩ := Option.bind_eq_some_iff.1 found
    apply errorOf?_bind_eq_none
    · rw [errorOf?_render, if_pos (fits_logic (h i p reset here) _)]
    · intro released
      rfl
  · rfl

/-- The rows of a table are written if their values fit the ports. -/
theorem errorOf?_combinationRows {ports : List Port} {rows : List (List Value)}
    (h : ∀ values ∈ rows, ∀ s ∈ ports.zip values, s.2.fits s.1.type) (style : Style)
    (delay : Delay) (n : Nat) :
  errorOf? (combinationRows ports style delay n rows) = none
  := by
  induction rows generalizing n with
  | nil => rfl
  | cons values more ih =>
    have here : errorOf? ((ports.zip values).mapM fun s => assign style 2 s.1 s.2) = none := by
      rw [errorOf?_mapM, List.findSome?_eq_none_iff]
      intro s hs
      rw [errorOf?_assign, if_pos (h values List.mem_cons_self s hs)]
    apply errorOf?_bind_eq_none here
    intro assigned
    apply errorOf?_bind_eq_none (ih (fun values hv => h values (List.mem_cons_of_mem _ hv)) (n + 1))
    intro rest
    rfl

/-- The table of the plan of an entity is written without an error. -/
theorem errorOf?_tableStatements (h : plan.combinations = none ∨ ∃ limits delay,
      plan.combinations = (Plan.ofEntity e roles limits delay).combinations) (style : Style) :
  errorOf? (tableStatements e style plan) = none
  := by
  rw [tableStatements.eq_def]
  split
  · next c table =>
    obtain absent | ⟨limits, delay, made⟩ := h
    · rw [absent] at table
      contradiction
    · rw [made, combinations_ofEntity] at table
      split at table
      · contradiction
      · obtain rfl := Option.some.inj table
        apply errorOf?_combinationRows
        rintro values hvalues ⟨p, v⟩ hs
        rw [combinations, filterMap_type] at hvalues
        obtain ⟨f, rfl⟩ := exists_of_mem_rows hvalues
        obtain ⟨hp, b, rfl⟩ := exists_of_mem_zip_row hs
        obtain ⟨i, hi, here⟩ := List.mem_filterMap.1 hp
        obtain ⟨q, found, -, -, scalar⟩ := mem_dataInputs.1 hi
        obtain rfl := Option.some.inj (found.symm.trans here)
        apply fits_logic scalar
  · rfl

theorem errorOf?_sequenceStatements (style : Style) (p : Port) (steps : List Step) :
  errorOf? (sequenceStatements style p steps) =
    ((steps.map fun s => (p, s.value)).find? fun s => !s.2.fits s.1.type).map fun s =>
      .misfit s.1.type s.2 s.1.name.text
  := by
  rw [sequenceStatements, errorOf?_bind_pure, errorOf?_mapM, ← findSome?_ite, List.findSome?_map]
  simp only [errorOf?_bind_pure, errorOf?_assign]
  rfl

/-- The first error of the sequences of a plan is that of the first value that does not fit. -/
theorem errorOf?_sequences (e : Entity) (style : Style) (plan : Plan) :
  errorOf? ((drivers e plan).mapM fun (p, steps) => sequenceStatements style p steps) =
    sequenceFault? e plan
  := by
  rw [errorOf?_mapM, sequenceFault?, sequenceValues, List.find?_flatMap, List.map_findSome?]
  congr 1
  funext s
  exact errorOf?_sequenceStatements style s.1 s.2

/-! ### The bench -/

/-- The clock and the reset of an entity are inputs of one bit. -/
theorem isScalarBit_of_roles (hroles : roles = Roles.ofPorts e.ports ∨ roles = Roles.none)
    (hi : roles.clock = some i ∨ roles.reset = some i) (here : e.ports[i]? = some p) :
  p.type.isScalarBit
  := by
  rcases hroles with rfl | rfl
  · exact (Roles.of_isControl here (Roles.isControl_iff.2 hi)).2
  · simp [Roles.none] at hi

theorem errorOf?_stimulusProcess (hroles : roles = Roles.ofPorts e.ports ∨ roles = Roles.none)
    (hplan : plan.combinations = none ∨ ∃ limits delay,
      plan.combinations = (Plan.ofEntity e roles limits delay).combinations)
    (style : Style) (done : Text) :
  errorOf? (stimulusProcess e style roles plan done) = sequenceFault? e plan
  := by
  have start : errorOf? (startStatements e style roles) = none := by
    apply errorOf?_startStatements
    intro i p reset here
    apply isScalarBit_of_roles hroles (.inr reset) here
  have table := errorOf?_tableStatements hplan style
  rw [stimulusProcess_eq]
  apply (errorOf?_bind _).trans
  · rw [start, Option.none_or]
  · intro start _
    apply (errorOf?_bind _).trans
    · rw [table, Option.none_or]
    · intro table _
      rw [errorOf?_bind_pure, errorOf?_sequences]

/-- The error of a bench is the first reason why there is none. -/
theorem errorOf?_assemble (hroles : roles = Roles.ofPorts e.ports ∨ roles = Roles.none)
    (hplan : plan.combinations = none ∨ ∃ limits delay,
      plan.combinations = (Plan.ofEntity e roles limits delay).combinations) (config : Config) :
  errorOf? (assemble e roles plan config) = firstFault? e config plan
  := by
  cases shared : findShared? e with
  | some n =>
    rw [assemble_of_shared shared, firstFault?, sharedFault?, ← findShared?, shared]
    rfl
  | none =>
    have clock : ∀ style settings done,
        errorOf? (paragraph e roles.clock (clockProcess e style settings done)) = none := by
      intro style settings done
      apply errorOf?_paragraph
      intro i p clock here
      apply errorOf?_clockProcess (isScalarBit_of_roles hroles (.inl clock) here)
    have reset : ∀ style settings,
        errorOf? (paragraph e roles.reset (resetProcess e style settings roles.activeLow)) =
          none := by
      intro style settings
      apply errorOf?_paragraph
      intro i p reset here
      apply errorOf?_resetProcess (isScalarBit_of_roles hroles (.inr reset) here)
    rw [assemble_of_not_shared shared, firstFault?, sharedFault?, ← findShared?, shared,
      Option.map_none, Option.none_or,
      ← errorOf?_constants e config (config.style.merge Style.standard)]
    apply errorOf?_bind
    intro constants _
    apply (errorOf?_bind _).trans
    · rw [errorOf?_signals, Option.none_or]
    · intro signals _
      apply (errorOf?_bind _).trans
      · rw [clock, Option.none_or]
      · intro clock _
        apply (errorOf?_bind _).trans
        · rw [reset, Option.none_or]
        · intro reset _
          rw [errorOf?_bind_pure, errorOf?_stimulusProcess hroles hplan]

/-! ### No reason -/

theorem sharedFault?_eq_none_iff :
  sharedFault? e = none ↔ ∀ n ∈ e.interfaceNames, ¬n.same e.name
  := by
  rw [sharedFault?, Option.map_eq_none_iff, List.find?_eq_none]

theorem valueFault?_eq_none_iff :
  valueFault? e config = none ↔ ∀ g ∈ e.generics, hasValue config g
  := by
  simp [valueFault?]

/-- No value is misfitting if all sequences of a plan have ports for whose types their values
are. -/
theorem sequenceFault?_eq_none_iff (inRange : ∀ s ∈ plan.sequences, s.1 < e.ports.length) :
  sequenceFault? e plan = none ↔
    ∀ s ∈ plan.sequences, ∃ p, e.ports[s.1]? = some p ∧ ∀ step ∈ s.2, step.value.fits p.type
  := by
  rw [sequenceFault?, Option.map_eq_none_iff, List.find?_eq_none]
  constructor
  · rintro fit ⟨i, steps⟩ hs
    obtain ⟨p, here⟩ : ∃ p, e.ports[i]? = some p := ⟨_, List.getElem?_eq_getElem (inRange _ hs)⟩
    use p, here
    intro step hstep
    have listed : (p, step.value) ∈ sequenceValues e plan := by
      rw [sequenceValues, List.mem_flatMap]
      use (p, steps)
      constructor
      · rw [drivers, List.mem_filterMap]
        use (i, steps), hs
        apply Option.map_eq_some_iff.2 ⟨p, here, rfl⟩
      · apply List.mem_map_of_mem hstep
    simpa using fit _ listed
  · intro fit s hs
    obtain ⟨⟨p, steps⟩, hdriver, hvalue⟩ := List.mem_flatMap.1 hs
    obtain ⟨⟨i, steps'⟩, hsequence, here⟩ := List.mem_filterMap.1 hdriver
    obtain ⟨step, hstep, rfl⟩ := List.mem_map.1 hvalue
    obtain ⟨q, found, fits⟩ := fit _ hsequence
    obtain ⟨q', found', eq⟩ := Option.map_eq_some_iff.1 here
    obtain rfl := Option.some.inj (found'.symm.trans found)
    obtain ⟨rfl, rfl⟩ := Prod.mk.inj eq
    simpa using fits step hstep

/-- The values of the sequences that are made for an entity fit their ports. -/
theorem sequenceFault?_ofEntity (e : Entity) (roles : Roles) (limits : Limits) (delay : Delay) :
  sequenceFault? e (Plan.ofEntity e roles limits delay) = none
  := by
  have made : ∀ s ∈ (Plan.ofEntity e roles limits delay).sequences,
      ∃ p, e.ports[s.1]? = some p ∧ s.2 = sequence p delay := by
    intro s hs
    obtain ⟨i, hi, eq⟩ := List.mem_filterMap.1 hs
    obtain ⟨p, here, rfl⟩ := Option.map_eq_some_iff.1 eq
    use p, here
  rw [sequenceFault?_eq_none_iff]
  · intro s hs
    obtain ⟨p, here, eq⟩ := made s hs
    use p, here
    rw [eq]
    intro step hstep
    obtain ⟨v, hv, rfl⟩ := List.mem_map.1 hstep
    apply fits_of_mem_values hv
  · intro s hs
    obtain ⟨p, here, -⟩ := made s hs
    apply (List.getElem?_eq_some_iff.1 here).1

theorem firstFault?_eq_none_iff (inRange : ∀ s ∈ plan.sequences, s.1 < e.ports.length) :
  firstFault? e config plan = none ↔
    (∀ n ∈ e.interfaceNames, ¬n.same e.name) ∧ (∀ g ∈ e.generics, hasValue config g) ∧
      ∀ s ∈ plan.sequences, ∃ p, e.ports[s.1]? = some p ∧ ∀ step ∈ s.2, step.value.fits p.type
  := by
  rw [firstFault?, Option.or_eq_none_iff, Option.or_eq_none_iff, sharedFault?_eq_none_iff,
    valueFault?_eq_none_iff, sequenceFault?_eq_none_iff inRange, and_assoc]

/-- The plan of an entity adds no reason to those that the entity and the configuration give. -/
theorem exists_generate_iff (e : Entity) (config : Config) :
  (∃ bench, generate e config = .ok bench) ↔
    (∀ n ∈ e.interfaceNames, ¬n.same e.name) ∧ ∀ g ∈ e.generics, hasValue config g
  := by
  have table : ∃ limits delay, (plan e config).combinations =
      (Plan.ofEntity e (Roles.ofPorts e.ports) limits delay).combinations := ⟨_, _, rfl⟩
  rw [← errorOf?_eq_none_iff, generate, errorOf?_assemble (.inl rfl) (.inr table), firstFault?,
    plan, sequenceFault?_ofEntity, Option.or_none, Option.or_eq_none_iff, sharedFault?_eq_none_iff,
    valueFault?_eq_none_iff]

/-- A bench for a plan with the table of an entity and any sequences for its ports fails for the
first reason of three kinds, and is written if and only if there is none: no port and no generic
has the name of the entity, every generic has a value, and the values of the sequences fit their
ports.  The bench for the plan of an entity is written if and only if there is no reason of the
first two kinds. -/
theorem assemble_iff (hroles : roles = Roles.ofPorts e.ports ∨ roles = Roles.none)
    (hplan : plan.combinations = none ∨ ∃ limits delay,
      plan.combinations = (Plan.ofEntity e roles limits delay).combinations)
    (inRange : ∀ s ∈ plan.sequences, s.1 < e.ports.length) (config : Config) :
  (∀ err, assemble e roles plan config = .error err ↔ firstFault? e config plan = some err) ∧
    ((∃ bench, assemble e roles plan config = .ok bench) ↔
      (∀ n ∈ e.interfaceNames, ¬n.same e.name) ∧ (∀ g ∈ e.generics, hasValue config g) ∧
        ∀ s ∈ plan.sequences, ∃ p, e.ports[s.1]? = some p ∧
          ∀ step ∈ s.2, step.value.fits p.type) ∧
    ((∃ bench, generate e config = .ok bench) ↔
      (∀ n ∈ e.interfaceNames, ¬n.same e.name) ∧ ∀ g ∈ e.generics, hasValue config g)
  := by
  refine ⟨?_, ?_, exists_generate_iff e config⟩
  · intro err
    rw [← errorOf?_eq_some_iff, errorOf?_assemble hroles hplan]
  · rw [← errorOf?_eq_none_iff, errorOf?_assemble hroles hplan, firstFault?_eq_none_iff inRange]

/-- A plan that gives a number to the first port. -/
def numberPlan : Plan := ⟨none, [(0, [⟨.bit true, 5⟩, ⟨.int 3, 5⟩])]⟩

/-- A number does not fit the first port of the shifter, but the plan of the shifter does. -/
theorem assemble_shifter :
  assemble shifter (Roles.ofPorts shifter.ports) numberPlan Config.standard =
      .error (.misfit .bit (.int 3) "d") ∧
    ∃ bench, generate shifter Config.standard = .ok bench
  := by
  have inRange : ∀ s ∈ numberPlan.sequences, s.1 < shifter.ports.length := by decide
  obtain ⟨faults, -, generated⟩ := assemble_iff (.inl rfl) (.inl rfl) inRange Config.standard
  constructor
  · apply (faults _).2 (by decide +kernel)
  · apply generated.2 (by decide +kernel)

end Testbench.Bench
