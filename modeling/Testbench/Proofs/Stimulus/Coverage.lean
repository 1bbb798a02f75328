import Testbench.Proofs.Stimulus.Table
import Testbench.Proofs.Stimulus.Vector

/-!
# Every input is driven once

The clock, the reset, the ports of the table and the ports of the sequences of an entity are its
inputs, each of them once.  A plan `Covers` the inputs that are left by the clock and the reset:
those of one bit take the rows of the table, the others run through sequences, and all values fit
the types of their ports.
-/

namespace Testbench.Stimulus

open Vhdl

variable {e : Entity} {roles : Roles} {limits : Limits} {delay : Delay} {i : Nat} {p : Port}

/-- The indices of the ports that take the rows of the table of a plan. -/
def Plan.tabled (plan : Plan) : List Nat := plan.combinations.elim [] (·.ports)

/-- The indices of the ports that run through the sequences of a plan. -/
def Plan.sequenced (plan : Plan) : List Nat := plan.sequences.map (·.1)

/-- The indices of all ports that are driven: the clock, the reset, and the ports of a plan. -/
def driven (roles : Roles) (plan : Plan) : List Nat :=
  roles.clock.toList ++ roles.reset.toList ++ (plan.tabled ++ plan.sequenced)

/-- The ports with an index that are inputs other than the clock and the reset. -/
def IsData (e : Entity) (roles : Roles) (i : Nat) (p : Port) : Prop :=
  e.ports[i]? = some p ∧ (p.mode = .input ∨ p.mode = .inout) ∧ roles.clock ≠ some i ∧
    roles.reset ≠ some i

/-- The roles and the plan of an entity drive each of its inputs once, by values that fit. -/
structure Covers (e : Entity) (roles : Roles) (plan : Plan) : Prop where
  /-- No port is driven twice. -/
  nodup : (driven roles plan).Nodup
  /-- The ports that are driven are the inputs. -/
  mem_driven : ∀ i, i ∈ driven roles plan ↔
    ∃ p, e.ports[i]? = some p ∧ (p.mode = .input ∨ p.mode = .inout)
  /-- The clock and the reset have a single bit or a truth value. -/
  control : ∀ i, roles.clock = some i ∨ roles.reset = some i →
    ∃ p, e.ports[i]? = some p ∧ (p.type.kind = .bit ∨ p.type.kind = .boolean)
  mem_tabled : ∀ i, i ∈ plan.tabled ↔
    ∃ p, IsData e roles i p ∧ (p.type.kind = .bit ∨ p.type.kind = .boolean)
  mem_sequenced : ∀ i, i ∈ plan.sequenced ↔
    ∃ p, IsData e roles i p ∧ ¬(p.type.kind = .bit ∨ p.type.kind = .boolean)
  tabled_lt : plan.tabled.Pairwise (· < ·)
  sequenced_lt : plan.sequenced.Pairwise (· < ·)
  /-- A row has a value for each port of the table, which fits the type of the port. -/
  rows : ∀ c ∈ plan.combinations, ∀ values ∈ c.rows,
    List.Forall₂ (fun i v => ∃ p, e.ports[i]? = some p ∧ v.fits p.type) c.ports values
  /-- A sequence has values, and they fit the type of its port. -/
  steps : ∀ s ∈ plan.sequences, s.2 ≠ [] ∧
    ∃ p, e.ports[s.1]? = some p ∧ ∀ step ∈ s.2, step.value.fits p.type

/-! ### The ports of a plan -/

theorem isScalarBit_iff {d : DataType} :
  d.isScalarBit ↔ d.kind = .bit ∨ d.kind = .boolean
  := by
  simp [DataType.isScalarBit]

theorem isInput_iff {m : Mode} :
  m.isInput ↔ m = .input ∨ m = .inout
  := by
  cases m <;> simp [Mode.isInput]

theorem mem_dataInputs_iff {q : DataType → Bool} :
  i ∈ dataInputs e roles q ↔ ∃ p, IsData e roles i p ∧ q p.type
  := by
  simp only [mem_dataInputs, IsData, isInput_iff, Roles.isControl_iff, not_or, and_assoc, ne_eq]

/-- The table is for the data inputs of one bit. -/
theorem tabled_ofEntity (e : Entity) (roles : Roles) (limits : Limits) (delay : Delay) :
  (Plan.ofEntity e roles limits delay).tabled = dataInputs e roles DataType.isScalarBit
  := by
  rw [Plan.tabled, combinations_ofEntity]
  split
  · next none => rw [none, Option.elim_none]
  · rfl

/-- The sequences are for the data inputs that are left. -/
theorem sequenced_ofEntity (e : Entity) (roles : Roles) (limits : Limits) (delay : Delay) :
  (Plan.ofEntity e roles limits delay).sequenced = dataInputs e roles (!·.isScalarBit)
  := by
  rw [Plan.sequenced, Plan.ofEntity, List.map_filterMap]
  calc
    _ = (dataInputs e roles (!·.isScalarBit)).filterMap some := by
      apply List.filterMap_congr
      intro i hi
      obtain ⟨p, hp, -⟩ := mem_dataInputs.1 hi
      rw [hp, Option.map_some, Option.map_some]
    _ = dataInputs e roles (!·.isScalarBit) := List.filterMap_some

/-- No data input is both of one bit and of another type. -/
theorem nodup_data (e : Entity) (roles : Roles) :
  (dataInputs e roles DataType.isScalarBit ++ dataInputs e roles (!·.isScalarBit)).Nodup
  := by
  apply List.nodup_append.2
  use nodup_dataInputs .., nodup_dataInputs ..
  rintro i scalar j other rfl
  obtain ⟨p, hp, -, -, bit⟩ := mem_dataInputs.1 scalar
  obtain ⟨q, hq, -, -, noBit⟩ := mem_dataInputs.1 other
  obtain rfl := Option.some.inj (hp.symm.trans hq)
  rw [bit] at noBit
  contradiction

/-- No port is driven twice. -/
theorem nodup_driven (e : Entity) (limits : Limits) (delay : Delay) :
  (driven (Roles.ofPorts e.ports)
    (Plan.ofEntity e (Roles.ofPorts e.ports) limits delay)).Nodup
  := by
  rw [driven, tabled_ofEntity, sequenced_ofEntity]
  apply List.nodup_append.2
  use Roles.nodup_toList e.ports, nodup_data e (Roles.ofPorts e.ports)
  rintro i control j data rfl
  have role : (Roles.ofPorts e.ports).isControl i := by
    rw [Roles.isControl_iff]
    exact (List.mem_append.1 control).imp Option.mem_toList.1 Option.mem_toList.1
  rcases List.mem_append.1 data with scalar | other
  · apply not_isControl_of_mem_dataInputs scalar role
  · apply not_isControl_of_mem_dataInputs other role

/-- The ports that are driven are the inputs. -/
theorem mem_driven_iff (e : Entity) (limits : Limits) (delay : Delay) :
  i ∈ driven (Roles.ofPorts e.ports) (Plan.ofEntity e (Roles.ofPorts e.ports) limits delay) ↔
    ∃ p, e.ports[i]? = some p ∧ p.mode.isInput
  := by
  simp only [driven, tabled_ofEntity, sequenced_ofEntity, List.mem_append, Option.mem_toList,
    ← Roles.isControl_iff]
  constructor
  · rintro (control | scalar | other)
    · obtain ⟨p, hp, -⟩ := Roles.exists_of_isControl control
      use p, hp, (Roles.of_isControl hp control).1
    · obtain ⟨p, hp, input, -⟩ := mem_dataInputs.1 scalar
      use p
    · obtain ⟨p, hp, input, -⟩ := mem_dataInputs.1 other
      use p
  · rintro ⟨p, hp, input⟩
    by_cases control : (Roles.ofPorts e.ports).isControl i
    · exact .inl control
    · right
      by_cases scalar : p.type.isScalarBit
      · exact .inl (mem_dataInputs.2 ⟨p, hp, input, control, scalar⟩)
      · exact .inr (mem_dataInputs.2 ⟨p, hp, input, control, by simpa using scalar⟩)

/-! ### The values of a plan -/

/-- The values of a row fit ports of one bit. -/
theorem IsRow.fits {indices : List Nat} {f : Nat → Bool} {values : List Value}
    (h : IsRow e indices f values)
    (scalar : ∀ i ∈ indices, ∃ p, e.ports[i]? = some p ∧ p.type.isScalarBit) :
  List.Forall₂ (fun i v => ∃ p, e.ports[i]? = some p ∧ v.fits p.type) indices values
  := by
  apply List.forall₂_iff_get.2
  use h.length.symm
  intro j hj hv
  obtain ⟨p, hp, bit⟩ := scalar _ (List.get_mem indices ⟨j, hj⟩)
  have value := h.value j _ p (List.getElem?_eq_getElem hj) hp
  rw [List.getElem?_eq_getElem hv] at value
  use p, hp
  rw [List.get_eq_getElem, Option.some.inj value]
  apply fits_logic bit

/-- A vector runs through some values, because nothing overflows when they are counted. -/
theorem vectorValues_ne_nil (range : Option Range) :
  vectorValues range ≠ []
  := by
  cases range with
  | none => apply List.cons_ne_nil
  | some r =>
    by_cases few : ∃ w, r.width? = some w ∧ w ≤ 64
    · obtain ⟨w, width, few⟩ := few
      rw [vectorValues_of_le width few, vectorNumbers, List.map_cons]
      apply List.cons_ne_nil
    · have many : ∀ w, r.width? = some w → 64 < w :=
        fun w width => Nat.lt_of_not_le fun le => few ⟨w, width, le⟩
      rw [vectorValues_of_lt many]
      apply List.cons_ne_nil

theorem values_ne_nil (p : Port) :
  values p ≠ []
  := by
  rw [values]
  split
  · apply List.cons_ne_nil
  · apply List.cons_ne_nil
  · split <;> apply List.cons_ne_nil
  · apply vectorValues_ne_nil

/-- The clock, the reset and the plan of an entity are a partition of its inputs: they drive each of
them once, and with values of its type. -/
theorem covers_ofEntity (e : Entity) (limits : Limits) (delay : Delay) :
  Covers e (Roles.ofPorts e.ports) (Plan.ofEntity e (Roles.ofPorts e.ports) limits delay)
  where
  nodup := nodup_driven e limits delay
  mem_driven i := by
    simp only [mem_driven_iff, isInput_iff]
  control i h := by
    have control := Roles.isControl_iff.2 h
    obtain ⟨p, hp, -⟩ := Roles.exists_of_isControl control
    use p, hp, isScalarBit_iff.1 (Roles.of_isControl hp control).2
  mem_tabled i := by
    simp only [tabled_ofEntity, mem_dataInputs_iff, isScalarBit_iff]
  mem_sequenced i := by
    simp only [sequenced_ofEntity, mem_dataInputs_iff, Bool.not_eq_true', ← isScalarBit_iff,
      Bool.not_eq_true]
  tabled_lt := by
    rw [tabled_ofEntity]
    apply pairwise_lt_dataInputs
  sequenced_lt := by
    rw [sequenced_ofEntity]
    apply pairwise_lt_dataInputs
  rows c hc values hv := by
    rw [combinations_ofEntity] at hc
    split at hc
    · contradiction
    · obtain rfl := Option.some.inj hc
      obtain ⟨f, rfl⟩ := exists_of_mem_rows hv
      have scalar : ∀ i ∈ dataInputs e (Roles.ofPorts e.ports) DataType.isScalarBit,
          ∃ p, e.ports[i]? = some p ∧ p.type.isScalarBit := by
        intro i hi
        obtain ⟨p, hp, -, -, bit⟩ := mem_dataInputs.1 hi
        use p
      apply (isRow_row (fun i hi => (scalar i hi).imp fun p => And.left) f).fits scalar
  steps := by
    rintro ⟨i, steps⟩ mem
    obtain ⟨j, -, found⟩ := List.mem_filterMap.1 mem
    obtain ⟨p, hp, same⟩ := Option.map_eq_some_iff.1 found
    obtain ⟨rfl, rfl⟩ : j = i ∧ sequence p delay = steps := by simpa using same
    use mt List.map_eq_nil_iff.1 (values_ne_nil p), p, hp
    intro step hs
    obtain ⟨v, hv, rfl⟩ := List.mem_map.1 hs
    apply fits_of_mem_values hv

end Testbench.Stimulus
