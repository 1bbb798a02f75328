import Testbench.Bench.Assembly
import Testbench.Proofs.Stage

/-!
# Parts of benches

The stimulus and the bench are written part by part: each is the text of its parts in order, and
there is none if one of the parts fails.  What a part is made of is said once for each part.
-/

namespace Testbench.Bench

open Vhdl Stimulus Layout

variable {e : Entity} {config : Config} {style : Style} {roles : Roles} {t : Text}

/-! ### The stimulus -/

/-- The statement that waits for the release of the reset, if there is one. -/
def startStatements (e : Entity) (style : Style) (roles : Roles) : Except Error Text :=
  match roles.reset.bind (e.ports[·]?) with
  | some reset => awaitReset style roles.activeLow reset
  | none => .ok []

/-- The statements for the table of a plan, if there is one. -/
def tableStatements (e : Entity) (style : Style) (plan : Plan) : Except Error Text :=
  match plan.combinations with
  | some c => combinationStatements e style c
  | none => .ok []

/-- The ports of an entity that have a sequence in a plan, with their sequences. -/
def drivers (e : Entity) (plan : Plan) : List (Port × List Step) :=
  plan.sequences.filterMap fun (i, steps) => (e.ports[i]?).map (·, steps)

/-- The stimulus waits for the reset, applies the table and runs the sequences in turn. -/
theorem stimulusProcess_eq (e : Entity) (style : Style) (roles : Roles) (plan : Plan)
    (done : Text) :
  stimulusProcess e style roles plan done = do
    let start ← startStatements e style roles
    let table ← tableStatements e style plan
    let sequences ← (drivers e plan).mapM fun (p, steps) => sequenceStatements style p steps
    return process style (freshName e "stimulus_process")
      (start ++ table ++ sequences.flatten ++ line style 2 (done ++ " <= true;"))
  := by
  rw [stimulusProcess, startStatements, tableStatements]
  cases roles.reset.bind (e.ports[·]?) <;> cases plan.combinations <;> rfl

/-- What waits for the release of the reset is written for a port, or there is nothing. -/
theorem of_startStatements_eq_ok (h : startStatements e style roles = .ok t) :
  t = [] ∨ ∃ p ∈ e.ports, awaitReset style roles.activeLow p = .ok t
  := by
  rw [startStatements] at h
  split at h
  · next p found =>
    obtain ⟨i, -, hi⟩ := Option.bind_eq_some_iff.1 found
    exact .inr ⟨p, List.mem_of_getElem? hi, h⟩
  · exact .inl (Except.ok.inj h).symm

/-- What applies a table is written for the table of the plan, or there is nothing. -/
theorem of_tableStatements_eq_ok {plan : Plan} (h : tableStatements e style plan = .ok t) :
  (plan.combinations = none ∧ t = []) ∨
    ∃ c, plan.combinations = some c ∧ combinationStatements e style c = .ok t
  := by
  rw [tableStatements] at h
  split at h
  · next c found => exact .inr ⟨c, found, h⟩
  · next absent => exact .inl ⟨absent, (Except.ok.inj h).symm⟩

/-- A sequence that is driven is one of the plan for the port. -/
theorem exists_of_mem_drivers {plan : Plan} {p : Port} {steps : List Step}
    (h : (p, steps) ∈ drivers e plan) :
  ∃ i, e.ports[i]? = some p ∧ (i, steps) ∈ plan.sequences
  := by
  obtain ⟨⟨i, steps'⟩, listed, found⟩ := List.mem_filterMap.1 h
  obtain ⟨q, hq, same⟩ := Option.map_eq_some_iff.1 found
  obtain ⟨rfl, rfl⟩ : q = p ∧ steps' = steps := by simpa using same
  use i, hq

/-! ### Declarations and paragraphs -/

/-- The constants are declared by the items of the generics, each with the value of its
constant. -/
theorem exists_items_of_constants (h : constants e config style = .ok t) :
  ∃ items : List Item,
    (∀ i ∈ items, ∃ g ∈ e.generics, ∃ v, constantValue config g = .ok v ∧
      i = (Item.ofGeneric g).withValue (some v)) ∧
    t = unlessEmpty items (declarationPart · "constant" style 1 ++ "\n")
  := by
  rw [constants] at h
  obtain ⟨items, hitems, h⟩ := bind_eq_ok.1 h
  use items
  constructor
  · intro i hi
    obtain ⟨g, hg, made⟩ := exists_of_mem_of_mapM_eq_ok hitems hi
    obtain ⟨v, hv, made⟩ := bind_eq_ok.1 made
    use g, hg, v, hv, (Except.ok.inj made).symm
  · exact (Except.ok.inj h).symm

/-- The signals are declared by the items of the ports, each with the initial value of its
signal. -/
theorem exists_items_of_signals (h : signals e style = .ok t) :
  ∃ items : List Item,
    (∀ i ∈ items, ∃ p ∈ e.ports, ∃ value, initialValue p = .ok value ∧
      i = (Item.ofPort p).withValue value) ∧
    t = declarationPart items "signal" style 1
  := by
  rw [signals] at h
  obtain ⟨items, hitems, h⟩ := bind_eq_ok.1 h
  use items
  constructor
  · intro i hi
    obtain ⟨p, hp, made⟩ := exists_of_mem_of_mapM_eq_ok hitems hi
    obtain ⟨value, hvalue, made⟩ := bind_eq_ok.1 made
    use p, hp, value, hvalue, (Except.ok.inj made).symm
  · exact (Except.ok.inj h).symm

/-- What is written for the port with an index stands behind an empty line, and without a port
nothing is written. -/
theorem of_paragraph_eq_ok {index : Option Nat} {write : Port → Except Error Text}
    (h : paragraph e index write = .ok t) :
  (index.bind (e.ports[·]?) = none ∧ t = []) ∨
    ∃ p s, index.bind (e.ports[·]?) = some p ∧ write p = .ok s ∧ t = '\n' :: s
  := by
  rw [paragraph.eq_def] at h
  split at h
  · next p found =>
    right
    cases written : write p with
    | error _ =>
      rw [written] at h
      contradiction
    | ok s =>
      rw [written] at h
      exact ⟨p, s, found, written, (Except.ok.inj h).symm⟩
  · next absent => exact .inl ⟨absent, (Except.ok.inj h).symm⟩

/-! ### The bench -/

/-- There is no bench for an entity whose name a port or a generic shares. -/
theorem assemble_of_shared {n : Identifier} (h : findShared? e = some n) (roles : Roles)
    (plan : Plan) (config : Config) :
  assemble e roles plan config = .error (.sharedName n.text e.name.text)
  := by
  rw [assemble, h]
  rfl

/-- The parts of a bench are written in turn. -/
theorem assemble_of_not_shared (h : findShared? e = none) (roles : Roles) (plan : Plan)
    (config : Config) :
  assemble e roles plan config = do
    let style := config.style.merge Style.standard
    let settings := config.bench
    let top := topName e config
    let done := freshName e "tb_done"
    let constants ← constants e config style
    let signals ← signals e style
    let clock ← paragraph e roles.clock (clockProcess e style settings done)
    let reset ← paragraph e roles.reset (resetProcess e style settings roles.activeLow)
    let stimulus ← stimulusProcess e style roles plan done
    return preamble e top ++
      "architecture " ++ settings.architectureName ++ " of " ++ top ++ " is\n" ++
      constants ++ component e style 1 ++ "\n" ++ signals ++
      line style 1 ("signal " ++ done ++ " : boolean := false;") ++
      "begin\n\n" ++ instantiation e (freshName e settings.instanceName) style 1 ++ clock ++
      reset ++ "\n" ++ stimulus ++
      "\nend architecture " ++ settings.architectureName ++ ";\n"
  := by
  rw [assemble, h]

/-- A bench in its parts: the lines before its declarations, the constants, the component, the
signals, the flag, the instance, the processes and the last line. -/
def parts (e : Entity) (config : Config) (constants signals clock reset stimulus : Text) :
    List Text :=
  let style := config.style.merge Style.standard
  [preamble e (topName e config) ++ "architecture " ++ config.bench.architectureName ++ " of " ++
      topName e config ++ " is\n",
    constants,
    component e style 1 ++ "\n",
    signals,
    line style 1 ("signal " ++ freshName e "tb_done" ++ " : boolean := false;"),
    "begin\n\n",
    instantiation e (freshName e config.bench.instanceName) style 1,
    clock ++ reset ++ "\n" ++ stimulus,
    "\nend architecture " ++ config.bench.architectureName ++ ";\n"]

/-- The parts of a bench are written in turn and stand behind one another. -/
theorem assemble_eq_parts (h : findShared? e = none) (roles : Roles) (plan : Plan)
    (config : Config) :
  assemble e roles plan config = do
    let style := config.style.merge Style.standard
    let done := freshName e "tb_done"
    let constants ← constants e config style
    let signals ← signals e style
    let clock ← paragraph e roles.clock (clockProcess e style config.bench done)
    let reset ← paragraph e roles.reset (resetProcess e style config.bench roles.activeLow)
    let stimulus ← stimulusProcess e style roles plan done
    return (parts e config constants signals clock reset stimulus).flatten
  := by
  rw [assemble_of_not_shared h]
  simp only [parts, List.flatten_cons, List.flatten_nil, List.append_assoc, List.append_nil]

/-- A bench that is generated has parts, each of which is written. -/
theorem exists_parts_of_generate {config : Config} {bench : Text}
    (h : generate e config = .ok bench) :
  let style := config.style.merge Style.standard
  let roles := Roles.ofPorts e.ports
  let done := freshName e "tb_done"
  findShared? e = none ∧
    ∃ constants signals clock reset stimulus,
      Bench.constants e config style = .ok constants ∧
      Bench.signals e style = .ok signals ∧
      paragraph e roles.clock (clockProcess e style config.bench done) = .ok clock ∧
      paragraph e roles.reset (resetProcess e style config.bench roles.activeLow) = .ok reset ∧
      stimulusProcess e style roles (plan e config) done = .ok stimulus ∧
      bench = (parts e config constants signals clock reset stimulus).flatten
  := by
  intro style roles done
  cases shared : findShared? e with
  | some n =>
    rw [generate, assemble_of_shared shared] at h
    contradiction
  | none =>
    rw [generate, assemble_eq_parts shared] at h
    obtain ⟨constants, hconstants, h⟩ := bind_eq_ok.1 h
    obtain ⟨signals, hsignals, h⟩ := bind_eq_ok.1 h
    obtain ⟨clock, hclock, h⟩ := bind_eq_ok.1 h
    obtain ⟨reset, hreset, h⟩ := bind_eq_ok.1 h
    obtain ⟨stimulus, hstimulus, h⟩ := bind_eq_ok.1 h
    exact ⟨rfl, constants, signals, clock, reset, stimulus, hconstants, hsignals, hclock, hreset,
      hstimulus, (Except.ok.inj h).symm⟩

end Testbench.Bench
