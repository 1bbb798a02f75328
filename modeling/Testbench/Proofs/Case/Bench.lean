import Testbench.Proofs.Bench.Assembly
import Testbench.Proofs.Case.Layout
import Testbench.Proofs.Case.Stimulus

/-!
# Benches in either case

The bench of an entity in lower case is the same, up to case, as the bench of the entity, and
there is none if there is none for the entity.  The names that are made up for the bench do not
depend on the case of the names that they avoid.
-/

namespace Testbench.Bench

open Text Vhdl Stimulus Layout

variable {e : Entity} {config : Config} {style : Style} {depth : Nat}

/-- Two stages that write text are alike when both fail or both write the same text up to
case. -/
def Alike : Except Error Text → Except Error Text → Prop :=
  Agree (fun _ _ => True) fun s t => lower s = lower t

/-! ### Names -/

theorem interfaceNames_lower (e : Entity) :
  e.lower.interfaceNames = e.interfaceNames.map Identifier.lower
  := by
  simp only [Entity.interfaceNames, Entity.lower, List.map_append, List.map_map]
  rfl

theorem isTaken_lower (e : Entity) (name : Text) :
  e.lower.isTaken name = e.isTaken name
  := by
  have names : e.lower.interfaceNames ++ [e.lower.name] =
      (e.interfaceNames ++ [e.name]).map Identifier.lower := by
    rw [interfaceNames_lower, List.map_append]
    rfl
  rw [Entity.isTaken, Entity.isTaken, names, List.any_map]
  simp only [Function.comp_def, Identifier.text_lower, sameWord_lower]

theorem freshName_lower (e : Entity) (base : Text) :
  freshName e.lower base = freshName e base
  := by
  have count : nameCount e.lower = nameCount e := by
    rw [nameCount, nameCount, interfaceNames_lower, List.length_map]
  simp only [freshName, count, isTaken_lower]

theorem findShared?_lower (e : Entity) :
  findShared? e.lower = (findShared? e).map Identifier.lower
  := by
  rw [findShared?, findShared?, interfaceNames_lower, List.find?_map]
  simp only [Function.comp_def, Identifier.same, Identifier.key_lower, Entity.lower]

/-! ### Constants and initial values -/

theorem baseType_lower (type : Text) :
  baseType (lower type) = baseType type
  := by
  have opening : IsMark '(' := by decide
  rw [baseType, baseType, takeWhile_lower, lower_lower]
  intro c
  rw [isBlank_toLower, bne, bne, toLower_beq opening]

theorem placeholder?_lower (type : Text) :
  placeholder? (lower type) = placeholder? type
  := by
  have opening : IsMark '(' := by decide
  have constrained : (lower type).contains '(' = type.contains '(' := by
    simp only [List.contains_eq_any_beq, lower, List.any_map, Function.comp_def]
    simp only [BEq.comm (a := '('), toLower_beq opening]
  rw [placeholder?, placeholder?, baseType_lower, constrained]

theorem generic?_lower (config : Config) (name : Text) :
  config.generic? (lower name) = config.generic? name
  := by
  simp only [Config.generic?, sameWord_lower_right]

theorem constantValue_lower (config : Config) (g : Generic) :
  Alike (constantValue config g.lower) (constantValue config g)
  := by
  rw [constantValue, constantValue]
  simp only [Generic.lower, Identifier.text_lower, generic?_lower, placeholder?_lower]
  cases config.generic? g.name.text with
  | some v => exact Agree.ok rfl
  | none =>
    cases g.default with
    | some v => exact Agree.ok (lower_lower v)
    | none =>
      cases placeholder? g.type with
      | some v => exact Agree.ok rfl
      | none => exact Agree.error trivial

/-- A value is written for a port alike if its bound is the same up to case. -/
theorem render_lower (p : Port) {v w : Value} (h : v.lower = w.lower) :
  Alike (render v p.lower) (render w p)
  := by
  have shared : v.fits p.type = w.fits p.type ∧ literal v = literal w := by
    rcases Value.lower_eq_cases h with rfl | ⟨b, c, rfl, rfl, -⟩
    · exact ⟨rfl, rfl⟩
    · constructor
      · cases p.type <;> rfl
      · rfl
  have type : p.lower.type = p.type := rfl
  rw [render, render, type, shared.1, shared.2]
  split
  · exact Agree.ok rfl
  · exact Agree.error trivial

theorem initialValue_lower (p : Port) :
  Agree (fun _ _ => True) (fun v w => v.map lower = w.map lower)
    (initialValue p.lower) (initialValue p)
  := by
  have initial : Agree (fun _ _ => True) (fun v w => v.map lower = w.map lower)
      ((render (.initial p.type) p.lower).map some) ((render (.initial p.type) p).map some) := by
    apply (render_lower p rfl).map
    intro a b same
    apply congrArg some same
  obtain ⟨name, mode, type, range, default, h⟩ := p
  cases mode with
  | output => exact Agree.ok rfl
  | input =>
    cases default with
    | none => exact initial
    | some v => exact Agree.ok (congrArg some (lower_lower v))
  | inout =>
    simp only [initialValue, Port.lower]
    cases highImpedance? type with
    | none => exact initial
    | some v => exact Agree.ok rfl

/-! ### Declarations -/

theorem constants_lower (e : Entity) (config : Config) (style : Style) :
  Alike (constants e.lower config style) (constants e config style)
  := by
  have part : ∀ items, lower (unlessEmpty (items.map Item.lower)
      (declarationPart · "constant" style 1 ++ "\n")) =
      lower (unlessEmpty items (declarationPart · "constant" style 1 ++ "\n")) := by
    apply lower_unlessEmpty
    intro items
    rw [lower_append, lower_append, lower_declarationPart]
  rw [constants, constants]
  apply Agree.bind
  · apply Agree.mapM_image (p := Item.lower) (q := Item.lower)
    intro g
    apply (constantValue_lower config g).bind
    intro v w same
    apply Agree.ok
    rw [Item.ofGeneric_lower]
    apply Item.lower_withValue
    apply congrArg some same
  · intro is js same
    apply Agree.ok
    rw [← part is, same, part js]

theorem signals_lower (e : Entity) (style : Style) :
  Alike (signals e.lower style) (signals e style)
  := by
  rw [signals, signals]
  apply Agree.bind
  · apply Agree.mapM_image (p := Item.lower) (q := Item.lower)
    intro p
    apply (initialValue_lower p).bind
    intro v w same
    apply Agree.ok
    rw [Item.ofPort_lower]
    apply Item.lower_withValue _ same
  · intro is js same
    apply Agree.ok
    rw [← lower_declarationPart is, same, lower_declarationPart js]

/-! ### Statements -/

theorem lower_line {s t : Text} (h : lower s = lower t) :
  lower (line style depth s) = lower (line style depth t)
  := by
  rw [line, line, lower_append, lower_append, lower_append, lower_append, h]

theorem lower_process (label : Text) {s t : Text} (h : lower s = lower t) :
  lower (process style label s) = lower (process style label t)
  := by
  simp only [process, lower_append, h]

/-- The assignment of a value to a port does not depend on the case of the name of the port and
of the bound that the value names. -/
theorem assign_lower (p : Port) {v w : Value} (h : v.lower = w.lower) :
  Alike (assign style depth p.lower v) (assign style depth p w)
  := by
  unfold assign
  apply (render_lower p h).bind
  intro s t same
  apply Agree.ok
  rw [lower_append, lower_append]
  congr 1
  · apply lower_line
    simp only [lower_append, same, Port.lower, Identifier.text_lower, lower_lower]
  · rcases Value.lower_eq_cases h with rfl | ⟨b, c, rfl, rfl, bounds⟩
    · cases v with
      | setBit b =>
        apply lower_line
        simp only [lower_append, Port.lower, Identifier.text_lower, lower_lower]
      | _ => rfl
    · have index : lower b.text = lower c.text := by
        rw [← Bound.text_lower, bounds, Bound.text_lower]
      apply lower_line
      simp only [lower_append, index, Port.lower, Identifier.text_lower, lower_lower]

theorem clockProcess_lower (settings : Settings) (done : Text) (clock : Port) :
  Alike (clockProcess e.lower style settings done clock.lower)
    (clockProcess e style settings done clock)
  := by
  rw [clockProcess, clockProcess, freshName_lower]
  apply (assign_lower clock rfl).bind
  intro low low' sameLow
  apply (assign_lower clock rfl).bind
  intro high high' sameHigh
  apply Agree.ok
  apply lower_process
  simp only [lower_append, sameLow, sameHigh]

theorem resetProcess_lower (settings : Settings) (activeLow : Bool) (reset : Port) :
  Alike (resetProcess e.lower style settings activeLow reset.lower)
    (resetProcess e style settings activeLow reset)
  := by
  rw [resetProcess, resetProcess, freshName_lower]
  apply (assign_lower reset rfl).bind
  intro active active' sameActive
  apply (assign_lower reset rfl).bind
  intro released released' sameReleased
  apply Agree.ok
  apply lower_process
  simp only [lower_append, sameActive, sameReleased]

theorem awaitReset_lower (activeLow : Bool) (reset : Port) :
  Alike (awaitReset style activeLow reset.lower) (awaitReset style activeLow reset)
  := by
  rw [awaitReset, awaitReset]
  apply (render_lower reset rfl).bind
  intro released released' same
  apply Agree.ok
  apply lower_line
  simp only [lower_append, same, Port.lower, Identifier.text_lower, lower_lower]

/-! ### Stimulus -/

theorem combinationRows_lower (ports : List Port) (delay : Delay) (n : Nat)
    (rows : List (List Value)) :
  Alike (combinationRows (ports.map Port.lower) style delay n rows)
    (combinationRows ports style delay n rows)
  := by
  induction rows generalizing n with
  | nil => exact Agree.ok rfl
  | cons values rows ih =>
    rw [combinationRows, combinationRows, List.zip_map_left]
    apply Agree.bind
    · apply Agree.mapM_image (p := lower) (q := lower)
      rintro ⟨p, v⟩
      apply assign_lower p rfl
    · intro assigned assigned' sameAssigned
      apply (ih (n + 1)).bind
      intro rest rest' sameRest
      apply Agree.ok
      simp only [lower_append, lower_flatten, sameAssigned, sameRest]

theorem combinationStatements_lower (e : Entity) (c : Combinations) :
  Alike (combinationStatements e.lower style c) (combinationStatements e style c)
  := by
  have ports : c.ports.filterMap (e.lower.ports[·]?) =
      (c.ports.filterMap (e.ports[·]?)).map Port.lower := by
    rw [List.map_filterMap]
    simp only [Entity.lower, List.getElem?_map]
  rw [combinationStatements, combinationStatements, ports]
  apply combinationRows_lower

theorem sequenceStatements_lower (p : Port) (steps : List Step) :
  Alike (sequenceStatements style p.lower (steps.map Step.lower))
    (sequenceStatements style p steps)
  := by
  rw [sequenceStatements, sequenceStatements]
  apply Agree.bind
  · apply Agree.mapM_image (p := lower) (q := lower)
    intro s
    apply (assign_lower p s.value.lower_lower).bind
    intro t t' same
    apply Agree.ok
    rw [lower_append, lower_append, same]
    rfl
  · intro assigned assigned' same
    apply Agree.ok
    rw [lower_append, lower_append, lower_flatten, lower_flatten, same]
    congr 1
    apply lower_line
    simp only [lower_append, Port.lower, Identifier.text_lower, lower_lower]

theorem getElem?_ports_lower (e : Entity) (i : Nat) :
  e.lower.ports[i]? = (e.ports[i]?).map Port.lower
  := List.getElem?_map

/-- What is written for the port with an index, if there is one, is alike if it is written
alike for every port. -/
theorem paragraph_lower (e : Entity) (index : Option Nat) {write write' : Port → Except Error Text}
    (h : ∀ p, Alike (write p.lower) (write' p)) :
  Alike (paragraph e.lower index write) (paragraph e index write')
  := by
  cases index with
  | none => exact Agree.ok rfl
  | some i =>
    simp only [paragraph, Option.bind_some, getElem?_ports_lower]
    cases e.ports[i]? with
    | none => exact Agree.ok rfl
    | some p =>
      apply (h p).map
      intro s t same
      rw [lower_append, lower_append, same]

theorem startStatements_lower (e : Entity) (roles : Roles) :
  Alike (startStatements e.lower style roles) (startStatements e style roles)
  := by
  rw [startStatements, startStatements]
  cases roles.reset with
  | none => exact Agree.ok rfl
  | some i =>
    simp only [Option.bind_some, getElem?_ports_lower]
    cases e.ports[i]? with
    | none => exact Agree.ok rfl
    | some reset => apply awaitReset_lower

theorem tableStatements_lower (e : Entity) (plan : Plan) :
  Alike (tableStatements e.lower style plan.lower) (tableStatements e style plan)
  := by
  obtain ⟨combinations, sequences⟩ := plan
  cases combinations with
  | none => exact Agree.ok rfl
  | some c => apply combinationStatements_lower

theorem drivers_lower (e : Entity) (plan : Plan) :
  drivers e.lower plan.lower =
    (drivers e plan).map (Prod.map Port.lower (List.map Step.lower))
  := by
  rw [drivers, drivers, Plan.lower, List.filterMap_map, List.map_filterMap]
  congr 1
  funext entry
  obtain ⟨i, steps⟩ := entry
  simp only [Function.comp_def, getElem?_ports_lower, Option.map_map]
  rfl

theorem stimulusProcess_lower (e : Entity) (roles : Roles) (plan : Plan) (done : Text) :
  Alike (stimulusProcess e.lower style roles plan.lower done)
    (stimulusProcess e style roles plan done)
  := by
  rw [stimulusProcess_eq, stimulusProcess_eq, freshName_lower, drivers_lower]
  apply (startStatements_lower e roles).bind
  intro start start' sameStart
  apply (tableStatements_lower e plan).bind
  intro table table' sameTable
  apply Agree.bind
  · apply Agree.mapM_image (p := lower) (q := lower)
    rintro ⟨p, steps⟩
    apply sequenceStatements_lower
  intro sequences sequences' sameSequences
  apply Agree.ok
  apply lower_process
  simp only [lower_append, lower_flatten, sameStart, sameTable, sameSequences]

/-! ### Benches -/

theorem lower_topName (e : Entity) (config : Config) :
  lower (topName e.lower config) = lower (topName e config)
  := by
  rw [topName, topName, lower_append, lower_append]
  congr 1
  apply lower_lower

theorem lower_preamble (e : Entity) {top top' : Text} (h : lower top = lower top') :
  lower (preamble e.lower top) = lower (preamble e top')
  := by
  have name : lower e.lower.name.text = lower e.name.text := lower_lower e.name.text
  unfold preamble
  simp only [lower_append]
  rw [h, name]

/-- The bench of an entity in lower case for the plan in lower case is the same, up to case. -/
theorem assemble_lower (e : Entity) (roles : Roles) (plan : Plan) (config : Config) :
  Alike (assemble e.lower roles plan.lower config) (assemble e roles plan config)
  := by
  have shared := findShared?_lower e
  cases h : findShared? e with
  | some n =>
    rw [h] at shared
    rw [assemble_of_shared shared, assemble_of_shared h]
    exact Agree.error trivial
  | none =>
    rw [h] at shared
    rw [assemble_of_not_shared shared, assemble_of_not_shared h]
    simp only [freshName_lower]
    apply (constants_lower e config _).bind
    intro constants constants' sameConstants
    apply (signals_lower e _).bind
    intro signals signals' sameSignals
    apply Agree.bind
    · apply paragraph_lower
      intro p
      apply clockProcess_lower
    intro clock clock' sameClock
    apply Agree.bind
    · apply paragraph_lower
      intro p
      apply resetProcess_lower
    intro reset reset' sameReset
    apply (stimulusProcess_lower e roles plan _).bind
    intro stimulus stimulus' sameStimulus
    apply Agree.ok
    simp only [lower_append, lower_topName, lower_preamble e (lower_topName e config),
      sameConstants, lower_component, sameSignals, lower_instantiation, sameClock, sameReset,
      sameStimulus]

/-- The bench of an entity in lower case is the bench of the entity, up to case. -/
theorem generate_lower (e : Entity) (config : Config) :
  Alike (generate e.lower config) (generate e config)
  := by
  have roles : Roles.ofPorts e.lower.ports = Roles.ofPorts e.ports := Roles.ofPorts_lower e.ports
  rw [generate, generate, plan, plan, roles, Plan.ofEntity_lower]
  apply assemble_lower

end Testbench.Bench
