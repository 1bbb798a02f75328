import Testbench.Stimulus.Plan
import Mathlib.Data.List.Nodup

/-!
# What a plan drives

The clock, the reset and the data inputs of an entity are different inputs of it, and a plan lists
each data input once.  All values that a plan gives to a port, and the logic values that the clock
and the reset take, fit the type of the port.  A property of values that does not depend on the
entity, except for the right bounds of its ranges, holds of all values of its plan.
-/

namespace Testbench.Stimulus

open Vhdl

variable {e : Entity} {ports : List Port} {p : Port} {i : Nat} {v : Value} {roles : Roles}

/-! ### Roles -/

namespace Roles

/-- The clock is an input of one bit. -/
theorem exists_of_clock (h : (ofPorts ports).clock = some i) :
  ∃ p, ports[i]? = some p ∧ canControl p
  := by
  obtain ⟨hi, found, -⟩ := List.findIdx?_eq_some_iff_getElem.1 h
  rw [Bool.and_eq_true] at found
  use ports[i], List.getElem?_eq_getElem hi, found.1

/-- The reset is an input of one bit other than the clock. -/
theorem exists_of_reset (h : (ofPorts ports).reset = some i) :
  ∃ p, ports[i]? = some p ∧ canControl p ∧ (ofPorts ports).clock ≠ some i
  := by
  obtain ⟨hi, found, -⟩ := List.findIdx?_eq_some_iff_getElem.1 h
  simp only [List.getElem_zipIdx, Nat.zero_add, Bool.and_eq_true, bne_iff_ne] at found
  have bound : i < ports.length := by simpa using hi
  use ports[i], List.getElem?_eq_getElem bound, found.1.2, found.1.1

theorem isControl_iff :
  roles.isControl i ↔ roles.clock = some i ∨ roles.reset = some i
  := by
  simp [isControl]

/-- The clock and the reset are ports. -/
theorem exists_of_isControl (h : (ofPorts ports).isControl i) :
  ∃ p, ports[i]? = some p ∧ canControl p
  := by
  rcases isControl_iff.1 h with clock | reset
  · apply exists_of_clock clock
  · obtain ⟨p, hp, control, -⟩ := exists_of_reset reset
    use p

/-- No port is the clock and the reset. -/
theorem nodup_toList (ports : List Port) :
  ((ofPorts ports).clock.toList ++ (ofPorts ports).reset.toList).Nodup
  := by
  apply List.nodup_append.2
  use Option.toList_nodup _, Option.toList_nodup _
  rintro i clock j reset rfl
  obtain ⟨-, -, -, other⟩ := exists_of_reset (Option.mem_toList.1 reset)
  apply other (Option.mem_toList.1 clock)

/-- The clock and the reset are inputs of one bit. -/
theorem of_isControl (hp : ports[i]? = some p) (h : (ofPorts ports).isControl i) :
  p.mode.isInput ∧ p.type.isScalarBit
  := by
  obtain ⟨q, hq, control⟩ := exists_of_isControl h
  obtain rfl := Option.some.inj (hp.symm.trans hq)
  exact Bool.and_eq_true_iff.1 control

end Roles

/-! ### Data inputs -/

theorem mem_dataInputs {q : DataType → Bool} :
  i ∈ dataInputs e roles q ↔
    ∃ p, e.ports[i]? = some p ∧ p.mode.isInput ∧ ¬roles.isControl i ∧ q p.type
  := by
  simp only [dataInputs, List.mem_map, List.mem_filter, List.mem_zipIdx_iff_getElem?, Prod.exists,
    Bool.and_eq_true, Bool.not_eq_true']
  constructor
  · rintro ⟨p, i, ⟨listed, ⟨input, other⟩, type⟩, rfl⟩
    use p, listed, input, by simp [other], type
  · rintro ⟨p, listed, input, other, type⟩
    use p, i, ⟨listed, ⟨input, by simpa using other⟩, type⟩

/-- A data input is a port. -/
theorem exists_of_mem_dataInputs {q : DataType → Bool} (h : i ∈ dataInputs e roles q) :
  ∃ p, e.ports[i]? = some p
  := by
  obtain ⟨p, hp, -⟩ := mem_dataInputs.1 h
  use p

/-- A data input is neither the clock nor the reset. -/
theorem not_isControl_of_mem_dataInputs {q : DataType → Bool} (h : i ∈ dataInputs e roles q) :
  ¬roles.isControl i
  := by
  obtain ⟨-, -, -, free, -⟩ := mem_dataInputs.1 h
  exact free

/-- The data inputs are listed in the order of their indices. -/
theorem pairwise_lt_dataInputs (e : Entity) (roles : Roles) (q : DataType → Bool) :
  (dataInputs e roles q).Pairwise (· < ·)
  := by
  have indices : (e.ports.zipIdx.map (·.2)).Pairwise (· < ·) := by
    rw [List.zipIdx_map_snd]
    exact List.pairwise_lt_range'
  apply indices.sublist (List.Sublist.map _ List.filter_sublist)

/-- No data input is listed twice. -/
theorem nodup_dataInputs (e : Entity) (roles : Roles) (q : DataType → Bool) :
  (dataInputs e roles q).Nodup
  := (pairwise_lt_dataInputs e roles q).imp Nat.ne_of_lt

/-! ### Values -/

/-- A logic value fits a type of one bit. -/
theorem fits_logic {d : DataType} (hd : d.isScalarBit) (b : Bool) :
  (Value.logic d b).fits d
  := by
  cases d <;> first | contradiction | rfl

/-- The initial value of a type fits it. -/
theorem fits_initial (d : DataType) :
  (Value.initial d).fits d
  := by
  cases d <;> rfl

theorem mem_toDigits_two {n : Nat} {c : Char} (h : c ∈ Nat.toDigits 2 n) :
  c = '0' ∨ c = '1'
  := by
  induction n using Nat.strongRecOn with
  | ind n ih =>
    have digit : ∀ b < 2, Nat.digitChar b = '0' ∨ Nat.digitChar b = '1' := by decide
    rw [Nat.toDigits_eq_if (by decide)] at h
    split at h
    · next small =>
      obtain rfl := List.mem_singleton.1 h
      apply digit n small
    · next large =>
      rcases List.mem_append.1 h with front | last
      · apply ih (n / 2) (by omega) front
      · obtain rfl := List.mem_singleton.1 last
        apply digit (n % 2) (Nat.mod_lt n (by decide))

/-- A literal is written with the two binary digits. -/
theorem mem_binary {width n : Nat} {c : Char} (h : c ∈ binary width n) :
  c = '0' ∨ c = '1'
  := by
  rw [binary, List.leftpad, List.mem_append] at h
  rcases h with zero | digit
  · left
    apply List.eq_of_mem_replicate zero
  · apply mem_toDigits_two digit

theorem fits_of_mem_vectorValues {range : Option Range} {d : DataType} (hd : d.kind = .vector)
    (hv : v ∈ vectorValues range) :
  v.fits d
  := by
  have fill : ∀ b, ∀ v ∈ fillValues b, v.fits d := by
    intro b v hv
    simp only [fillValues, List.mem_cons, List.not_mem_nil, or_false] at hv
    rcases hv with rfl | rfl | rfl | rfl <;> simp [Value.fits, hd]
  rw [vectorValues.eq_def] at hv
  split at hv
  · apply fill _ v hv
  · split at hv
    · split at hv
      · obtain ⟨n, -, rfl⟩ := List.mem_map.1 hv
        simp [Value.fits, hd]
      · apply fill _ v hv
    · apply fill _ v hv

/-- The values that a port runs through fit its type. -/
theorem fits_of_mem_values (hv : v ∈ values p) :
  v.fits p.type
  := by
  rw [values] at hv
  split at hv
  · next kind =>
    obtain ⟨b, -, rfl⟩ := List.mem_map.1 hv
    apply fits_logic
    simp [DataType.isScalarBit, kind]
  · next kind =>
    obtain ⟨b, -, rfl⟩ := List.mem_map.1 hv
    apply fits_logic
    simp [DataType.isScalarBit, kind]
  · next kind =>
    have all : ∀ d : DataType, d.kind = .numeric →
        ∀ n ∈ (if d = .positive then [1, 10, 100] else [0, 1, 10, 100] : List Int),
          (Value.int n).fits d := by
      intro d
      cases d <;> decide
    obtain ⟨n, hn, rfl⟩ := List.mem_map.1 hv
    apply all _ kind n hn
  · next kind => apply fits_of_mem_vectorValues kind hv

theorem length_row (types : List DataType) (f : Nat → Bool) :
  (row types f).length = types.length
  := by
  rw [row, List.length_map, List.length_zipIdx]

/-- The rows of a table give logic values. -/
theorem exists_of_mem_rows {types : List DataType} {limits : Limits} {values : List Value}
    (h : values ∈ rows types limits) :
  ∃ f, values = row types f
  := by
  rw [rows] at h
  split at h
  · obtain ⟨n, -, rfl⟩ := List.mem_map.1 h
    exact ⟨_, rfl⟩
  · simp only [List.mem_cons, List.not_mem_nil, or_false] at h
    rcases h with rfl | rfl | rfl <;> exact ⟨_, rfl⟩

/-- A row gives a port a logic value for its type. -/
theorem exists_of_mem_zip_row {f : Nat → Bool}
    (h : (p, v) ∈ ports.zip (row (ports.map (·.type)) f)) :
  p ∈ ports ∧ ∃ b, v = Value.logic p.type b
  := by
  use (List.of_mem_zip h).1
  obtain ⟨i, hi, eq⟩ := List.mem_iff_getElem.1 h
  simp only [row, List.getElem_zip, List.getElem_map, List.getElem_zipIdx, Nat.zero_add,
    Prod.mk.injEq] at eq
  obtain ⟨rfl, rfl⟩ := eq
  exact ⟨_, rfl⟩

/-- The types of the ports of a table are those for which its rows are made. -/
theorem filterMap_type (e : Entity) (indices : List Nat) :
  indices.filterMap (fun i => (e.ports[i]?).map (·.type)) =
    (indices.filterMap (e.ports[·]?)).map (·.type)
  := (List.map_filterMap ..).symm

/-- The table of a plan is for the data inputs of one bit, if there are any. -/
theorem combinations_ofEntity (e : Entity) (roles : Roles) (limits : Limits) (delay : Delay) :
  (Plan.ofEntity e roles limits delay).combinations =
    if dataInputs e roles DataType.isScalarBit = [] then none
    else some (combinations e (dataInputs e roles DataType.isScalarBit) limits delay)
  := by
  rw [Plan.ofEntity]
  cases dataInputs e roles DataType.isScalarBit <;> rfl

/-! ### Properties of all values -/

/-- A property holds of the values that a plan may give to ports of whatever range. -/
structure Value.Common (P : Value → Prop) : Prop where
  bit : ∀ b, P (.bit b)
  truth : ∀ b, P (.truth b)
  int : ∀ n, P (.int n)
  literal : ∀ width n, P (.literal (binary width n))
  fill : ∀ b, P (.fill b)
  first : P (.setBit (.int 0))

/-- All values that a plan gives to ports have a property. -/
structure Plan.All (P : Value → Prop) (plan : Plan) : Prop where
  rows : ∀ c ∈ plan.combinations, ∀ row ∈ c.rows, ∀ v ∈ row, P v
  steps : ∀ sequence ∈ plan.sequences, ∀ s ∈ sequence.2, P s.value

namespace Value.Common

variable {P : Value → Prop}

theorem logic (common : Common P) (d : DataType) (b : Bool) :
  P (Value.logic d b)
  := by
  rw [Value.logic]
  split
  · apply common.truth
  · apply common.bit

theorem initial (common : Common P) (d : DataType) :
  P (Value.initial d)
  := by
  rw [Value.initial]
  split
  · apply common.logic
  · apply common.logic
  · apply common.int
  · apply common.fill

/-- A value that a vector runs through has the property if the one that names its right bound
has it. -/
theorem of_mem_vectorValues (common : Common P) {range : Option Range}
    (right : ∀ r ∈ range, P (.setBit r.right)) (hv : v ∈ vectorValues range) :
  P v
  := by
  have fill : ∀ b : Bound, P (.setBit b) → ∀ v ∈ fillValues b, P v := by
    intro b hb v hv
    simp only [fillValues, List.mem_cons, List.not_mem_nil, or_false] at hv
    rcases hv with rfl | rfl | rfl | rfl
    · apply common.fill
    · apply hb
    · apply common.fill
    · apply common.fill
  rw [vectorValues.eq_def] at hv
  split at hv
  · apply fill _ common.first v hv
  · next r =>
    split at hv
    · split at hv
      · obtain ⟨n, -, rfl⟩ := List.mem_map.1 hv
        apply common.literal
      · apply fill _ (right r rfl) v hv
    · apply fill _ (right r rfl) v hv

/-- A value that a port runs through has the property if the one that names the right bound of
the port has it. -/
theorem of_mem_values (common : Common P) (right : ∀ r ∈ p.range, P (.setBit r.right))
    (hv : v ∈ values p) :
  P v
  := by
  rw [values] at hv
  split at hv
  · obtain ⟨b, -, rfl⟩ := List.mem_map.1 hv
    apply common.logic
  · obtain ⟨b, -, rfl⟩ := List.mem_map.1 hv
    apply common.logic
  · obtain ⟨n, -, rfl⟩ := List.mem_map.1 hv
    apply common.int
  · apply common.of_mem_vectorValues right hv

/-- All values of the plan of an entity have the property if those that name the right bounds of
its ports have it. -/
theorem all_ofEntity (common : Common P)
    (right : ∀ p ∈ e.ports, ∀ r ∈ p.range, P (.setBit r.right)) (roles : Roles) (limits : Limits)
    (delay : Delay) :
  (Plan.ofEntity e roles limits delay).All P
  := by
  constructor
  · intro c hc row hrow v hv
    rw [combinations_ofEntity] at hc
    split at hc
    · contradiction
    · obtain rfl := Option.some.inj hc
      obtain ⟨f, rfl⟩ := exists_of_mem_rows hrow
      obtain ⟨⟨d, j⟩, -, rfl⟩ := List.mem_map.1 hv
      apply common.logic
  · rintro ⟨i, steps⟩ mem s hs
    obtain ⟨j, -, found⟩ := List.mem_filterMap.1 mem
    obtain ⟨p, hp, same⟩ := Option.map_eq_some_iff.1 found
    obtain ⟨rfl, rfl⟩ : j = i ∧ sequence p delay = steps := by simpa using same
    obtain ⟨v, hv, rfl⟩ := List.mem_map.1 hs
    apply common.of_mem_values (right p (List.mem_of_getElem? hp)) hv

end Value.Common

end Testbench.Stimulus
