import Testbench.Proofs.Case.Source
import Testbench.Stimulus.Plan

/-!
# Roles and plans in either case

The clock and the reset of an entity are found by names in lower case, so that putting the
entity into lower case does not change them.  The values in its plan are the same except for
the expressions of bounds, which are put into lower case.
-/

namespace Testbench.Stimulus

open Vhdl

/-! ### Roles -/

namespace Roles

theorem canControl_lower (p : Port) :
  canControl p.lower = canControl p
  := rfl

theorem namesClock_lower (p : Port) :
  namesClock p.lower = namesClock p
  := by
  rw [namesClock, namesClock, Port.lower, Identifier.key_lower]

theorem namesReset_lower (p : Port) :
  namesReset p.lower = namesReset p
  := by
  rw [namesReset, namesReset, Port.lower, Identifier.key_lower]

theorem namesActiveLow_lower (p : Port) :
  namesActiveLow p.lower = namesActiveLow p
  := by
  rw [namesActiveLow, namesActiveLow, Port.lower, Identifier.key_lower]

/-- The clock, the reset and its active level do not depend on case. -/
theorem ofPorts_lower (ports : List Port) :
  ofPorts (ports.map Port.lower) = ofPorts ports
  := by
  have clock : findClock? (ports.map Port.lower) = findClock? ports := by
    simp only [findClock?, List.findIdx?_map, Function.comp_def, canControl_lower,
      namesClock_lower]
  have reset : ∀ clock, findReset? (ports.map Port.lower) clock = findReset? ports clock := by
    intro clock
    simp only [findReset?, List.zipIdx_map, List.findIdx?_map, Function.comp_def, Prod.map,
      canControl_lower, namesReset_lower]
    rfl
  have active : ∀ reset : Option Nat, (reset.bind ((ports.map Port.lower)[·]?)).any namesActiveLow =
      (reset.bind (ports[·]?)).any namesActiveLow := by
    intro reset
    cases reset with
    | none => rfl
    | some i =>
      simp only [Option.bind_some, List.getElem?_map]
      cases ports[i]? with
      | none => rfl
      | some p => apply namesActiveLow_lower
  rw [ofPorts, ofPorts, clock, reset, active]

end Roles

/-! ### Values -/

/-- The value with the expression of its bound in lower case. -/
def Value.lower : Value → Value
  | .setBit b => .setBit b.lower
  | v => v

/-- Values that are the same in lower case are equal or set bits with bounds that are the same
in lower case. -/
theorem Value.lower_eq_cases {v w : Value} (h : v.lower = w.lower) :
  v = w ∨ ∃ b c, v = .setBit b ∧ w = .setBit c ∧ b.lower = c.lower
  := by
  cases v with
  | setBit b =>
    cases w with
    | setBit c =>
      right
      use b, c, rfl, rfl
      apply Value.setBit.inj h
    | _ => contradiction
  | _ =>
    left
    cases w with
    | setBit c => contradiction
    | _ => exact h

theorem Value.lower_lower (v : Value) :
  v.lower.lower = v.lower
  := by
  cases v with
  | setBit b => exact congrArg setBit b.lower_lower
  | _ => rfl

theorem Value.lower_logic (d : DataType) (b : Bool) :
  (logic d b).lower = logic d b
  := by
  rw [logic]
  split <;> rfl

theorem width?_lower (r : Range) :
  r.lower.width? = r.width?
  := by
  simp only [Range.width?, Range.lower, Bound.int?_lower]

theorem vectorValues_lower (range : Option Range) :
  vectorValues (range.map Range.lower) = (vectorValues range).map Value.lower
  := by
  cases range with
  | none => rfl
  | some r =>
    simp only [vectorValues, Option.map_some, width?_lower]
    cases r.width? with
    | none => rfl
    | some w =>
      simp only
      split
      · rw [List.map_map]
        rfl
      · rfl

theorem values_lower (p : Port) :
  values p.lower = (values p).map Value.lower
  := by
  have type : p.lower.type = p.type := rfl
  rw [values, values, type]
  cases p.type.kind with
  | bit => simp only [List.map_cons, List.map_nil, Value.lower_logic]
  | boolean => simp only [List.map_cons, List.map_nil, Value.lower_logic]
  | numeric => simp only [List.map_map]; rfl
  | vector => apply vectorValues_lower

/-! ### Plans -/

/-- The step with its value in lower case. -/
def Step.lower (s : Step) : Step := ⟨s.value.lower, s.delay⟩

/-- The plan with the steps of its sequences in lower case. -/
def Plan.lower (p : Plan) : Plan :=
  ⟨p.combinations, p.sequences.map fun (i, steps) => (i, steps.map Step.lower)⟩

theorem sequence_lower (p : Port) (delay : Delay) :
  sequence p.lower delay = (sequence p delay).map Step.lower
  := by
  rw [sequence, sequence, values_lower, List.map_map, List.map_map]
  rfl

theorem dataInputs_lower (e : Entity) (roles : Roles) (p : DataType → Bool) :
  dataInputs e.lower roles p = dataInputs e roles p
  := by
  simp only [dataInputs, Entity.lower, List.zipIdx_map, List.filter_map, List.map_map,
    Function.comp_def]
  rfl

theorem combinations_lower (e : Entity) (ports : List Nat) (limits : Limits) (delay : Delay) :
  combinations e.lower ports limits delay = combinations e ports limits delay
  := by
  have types : ∀ i : Nat, (e.lower.ports[i]?).map (·.type) = (e.ports[i]?).map (·.type) := by
    intro i
    simp only [Entity.lower, List.getElem?_map, Option.map_map]
    rfl
  simp only [combinations, types]

/-- The plan of an entity in lower case is the plan of the entity in lower case. -/
theorem Plan.ofEntity_lower (e : Entity) (roles : Roles) (limits : Limits) (delay : Delay) :
  ofEntity e.lower roles limits delay = (ofEntity e roles limits delay).lower
  := by
  simp only [ofEntity, lower, dataInputs_lower, combinations_lower, List.map_filterMap]
  congr 2
  funext i
  simp only [Entity.lower, List.getElem?_map, Option.map_map, Function.comp_def, sequence_lower]

end Testbench.Stimulus
