import Testbench.Proofs.Stimulus.Plan
import Testbench.Proofs.Stimulus.Word
import Mathlib.Data.Nat.Bitwise

/-!
# The table of combinations

A table counts in binary: bit `j` of the number of a row is the value of its `j`-th port.  As long
as it may have as many rows as there are assignments, each assignment stands in exactly one row.
Beyond the limit of inputs a table has three rows.
-/

namespace Testbench.Stimulus

open Vhdl

variable {e : Entity} {indices : List Nat} {values : List Value} {f g : Nat → Bool}
  {i j m n : Nat} {p : Port} {limits : Limits}

/-! ### Rows -/

/-- A row gives the `j`-th of the ports with the given indices the logic value of `f j`. -/
structure IsRow (e : Entity) (indices : List Nat) (f : Nat → Bool) (values : List Value) :
    Prop where
  length : values.length = indices.length
  value : ∀ j i p, indices[j]? = some i → e.ports[i]? = some p →
    values[j]? = some (Value.logic p.type (f j))

/-- The types for which the rows of a table are made. -/
def tableTypes (e : Entity) (indices : List Nat) : List DataType :=
  indices.filterMap fun i => (e.ports[i]?).map (·.type)

/-- There is a type for each index of a port. -/
theorem map_some_tableTypes (h : ∀ i ∈ indices, ∃ p, e.ports[i]? = some p) :
  (tableTypes e indices).map some = indices.map fun i => (e.ports[i]?).map (·.type)
  := by
  induction indices with
  | nil => rfl
  | cons i indices ih =>
    obtain ⟨p, hp⟩ := h i List.mem_cons_self
    have rest := ih fun i hi => h i (List.mem_cons_of_mem _ hi)
    simp only [tableTypes, List.filterMap_cons, List.map_cons, hp, Option.map_some] at rest ⊢
    rw [rest]

theorem length_tableTypes (h : ∀ i ∈ indices, ∃ p, e.ports[i]? = some p) :
  (tableTypes e indices).length = indices.length
  := by
  simpa using congrArg List.length (map_some_tableTypes h)

theorem getElem?_row (types : List DataType) (f : Nat → Bool) (j : Nat) :
  (row types f)[j]? = (types[j]?).map fun d => Value.logic d (f j)
  := by
  rw [row, List.getElem?_map, List.getElem?_zipIdx, Option.map_map, Nat.zero_add]
  rfl

/-- The rows that a table is made of are rows for its ports. -/
theorem isRow_row (h : ∀ i ∈ indices, ∃ p, e.ports[i]? = some p) (f : Nat → Bool) :
  IsRow e indices f (row (tableTypes e indices) f)
  where
  length := (length_row _ f).trans (length_tableTypes h)
  value j i p hj hp := by
    have types := congrArg (·[j]?) (map_some_tableTypes h)
    simp only [List.getElem?_map, hj, Option.map_some, hp] at types
    obtain ⟨d, found, same⟩ := Option.map_eq_some_iff.1 types
    obtain rfl := Option.some.inj same
    rw [getElem?_row, found, Option.map_some]

/-- Only the bits of ports matter to a row. -/
theorem IsRow.congr (h : IsRow e indices f values) (same : ∀ j < indices.length, f j = g j) :
  IsRow e indices g values
  where
  length := h.length
  value j i p hj hp := by
    obtain ⟨bound, -⟩ := List.getElem?_eq_some_iff.1 hj
    rw [← same j bound]
    apply h.value j i p hj hp

theorem logic_injective (d : DataType) :
  Function.Injective (Value.logic d)
  := by
  intro b b' same
  cases d <;> cases b <;> cases b' <;> first | rfl | contradiction

/-- The values of a row determine its bits. -/
theorem IsRow.unique (inside : ∀ i ∈ indices, ∃ p, e.ports[i]? = some p)
    (hf : IsRow e indices f values) (hg : IsRow e indices g values) (hj : j < indices.length) :
  f j = g j
  := by
  have listed := List.getElem?_eq_getElem hj
  obtain ⟨p, hp⟩ := inside _ (List.getElem_mem hj)
  apply logic_injective p.type
  apply Option.some.inj
  rw [← hf.value j _ p listed hp, hg.value j _ p listed hp]

/-- Numbers with `n` bits that agree in all of them are equal. -/
theorem eq_of_testBit (hm : m < 2 ^ n) (hi : i < 2 ^ n)
    (h : ∀ j < n, m.testBit j = i.testBit j) :
  m = i
  := by
  have bits : (fun j : Fin n => m.testBit j) = fun j : Fin n => i.testBit j := by
    funext j
    apply h j j.isLt
  calc
    m = m % 2 ^ n := (Nat.mod_eq_of_lt hm).symm
    _ = Nat.ofBits fun j : Fin n => m.testBit j := (Nat.ofBits_testBit m n).symm
    _ = Nat.ofBits fun j : Fin n => i.testBit j := congrArg Nat.ofBits bits
    _ = i % 2 ^ n := Nat.ofBits_testBit i n
    _ = i := Nat.mod_eq_of_lt hi

/-! ### Counting -/

section Counting

variable (inside : ∀ i ∈ indices, ∃ p, e.ports[i]? = some p) (few : indices.length < 2 ^ 32)
  (within : indices.length ≤ limits.inputs) (word : limits.rows < Word.limit)

include inside few within word

/-- A table has a row for each assignment, up to the limit of rows. -/
theorem length_rows :
  (rows (tableTypes e indices) limits).length = min (2 ^ indices.length) limits.rows
  := by
  rw [rows, length_tableTypes inside, if_pos within, List.length_map, List.length_range,
    rowCount_eq few word]

omit word in
/-- The bits of the number of a row are its values. -/
theorem isRow_of_getElem?_rows (h : (rows (tableTypes e indices) limits)[i]? = some values) :
  IsRow e indices (fun j => decide (j < 64) && i.testBit j) values
  := by
  rw [rows, length_tableTypes inside, if_pos within, List.getElem?_map] at h
  obtain ⟨i', found, rfl⟩ := Option.map_eq_some_iff.1 h
  obtain ⟨bound, rfl⟩ := List.getElem?_eq_some_iff.1 found
  rw [List.getElem_range]
  apply (isRow_row inside _).congr
  intro j hj
  apply wordBit_eq (hj.trans few)

/-- The number of a row has a bit for each of its ports. -/
theorem lt_of_getElem?_rows (h : (rows (tableTypes e indices) limits)[i]? = some values) :
  i < 2 ^ indices.length ∧ i < Word.limit
  := by
  obtain ⟨bound, -⟩ := List.getElem?_eq_some_iff.1 h
  rw [length_rows inside few within word, Nat.lt_min] at bound
  use bound.1, bound.2.trans word

/-- The values of a row are the bits of its number. -/
theorem testBit_of_isRow (h : (rows (tableTypes e indices) limits)[i]? = some values)
    (row : IsRow e indices f values) (hj : j < indices.length) :
  i.testBit j = f j
  := by
  obtain ⟨-, bound⟩ := lt_of_getElem?_rows inside few within word h
  rw [← testBit_word bound]
  exact (isRow_of_getElem?_rows inside few within h).unique inside row hj

/-- Different rows have different numbers. -/
theorem nodup_rows :
  (rows (tableTypes e indices) limits).Nodup
  := by
  apply List.nodup_iff_getElem?_ne_getElem?.2
  intro i m order bound same
  have found := List.getElem?_eq_getElem bound
  have row := isRow_of_getElem?_rows inside few within found
  have first := lt_of_getElem?_rows inside few within word (same.trans found)
  have second := lt_of_getElem?_rows inside few within word found
  apply order.ne
  apply eq_of_testBit first.1 second.1
  intro j hj
  rw [testBit_of_isRow inside few within word (same.trans found) row hj, testBit_word second.2]

/-- An assignment stands in one row, the one whose number it writes in binary. -/
theorem existsUnique_row (room : 2 ^ indices.length ≤ limits.rows) (f : Nat → Bool) :
  ∃! i : Nat, ∃ values, (rows (tableTypes e indices) limits)[i]? = some values ∧
    IsRow e indices f values
  := by
  have fits : Nat.ofBits (fun j : Fin indices.length => f j) < 2 ^ indices.length :=
    Nat.ofBits_lt_two_pow _
  have bits : ∀ j < indices.length,
      (Nat.ofBits fun j : Fin indices.length => f j).testBit j = f j :=
    fun j hj => Nat.testBit_ofBits_lt _ j hj
  -- The row is found by its number, whose bits are the assignment.
  use Nat.ofBits fun j : Fin indices.length => f j
  constructor
  · have bound : (Nat.ofBits fun j : Fin indices.length => f j) <
        (rows (tableTypes e indices) limits).length := by
      rw [length_rows inside few within word, Nat.min_eq_left room]
      exact fits
    have found := List.getElem?_eq_getElem bound
    refine ⟨_, found, ?_⟩
    apply (isRow_of_getElem?_rows inside few within found).congr
    intro j hj
    rw [testBit_word (fits.trans_le (room.trans word.le)), bits j hj]
  · rintro i ⟨values, found, row⟩
    apply eq_of_testBit (lt_of_getElem?_rows inside few within word found).1 fits
    intro j hj
    rw [testBit_of_isRow inside few within word found row hj, bits j hj]

end Counting

/-- Beyond the limit of inputs a table clears all ports, sets all, and sets every other one. -/
theorem rows_of_lt {types : List DataType} (h : limits.inputs < types.length) :
  rows types limits =
    [row types fun _ => false, row types fun _ => true, row types fun j => j % 2 == 0]
  := if_neg (Nat.not_le_of_lt h)

/-- The table of an entity is exhaustive up to its cap.  Let `n` ports be data inputs of one bit.
Up to the limit of inputs there is a row for each assignment, as long as there may be so many; the
`i`-th row gives the `j`-th port bit `j` of `i`; no row is repeated, and each assignment stands in
one row if there is room for all of them.  Beyond the limit three rows are left.  A shift either is
exact or is noticed to leave the word. -/
theorem combinations_ofEntity_exhaustive (e : Entity) (limits : Limits) (delay : Delay)
    (count : (dataInputs e (Roles.ofPorts e.ports) DataType.isScalarBit).length = n)
    (positive : 1 ≤ n) (few : n < 2 ^ 32) (word : limits.rows < 2 ^ 64) :
  ∃ c, (Plan.ofEntity e (Roles.ofPorts e.ports) limits delay).combinations = some c ∧
    c.ports = dataInputs e (Roles.ofPorts e.ports) DataType.isScalarBit ∧
    (n ≤ limits.inputs →
      c.rows.length = min (2 ^ n) limits.rows ∧
      (∀ (i : Nat) values, c.rows[i]? = some values →
        IsRow e c.ports (fun j => decide (j < 64) && i.testBit j) values) ∧
      c.rows.Nodup ∧
      (2 ^ n ≤ limits.rows → ∀ f : Nat → Bool,
        ∃! i : Nat, ∃ values, c.rows[i]? = some values ∧ IsRow e c.ports f values)) ∧
    (limits.inputs < n →
      ∃ low high alternating, c.rows = [low, high, alternating] ∧
        IsRow e c.ports (fun _ => false) low ∧
        IsRow e c.ports (fun _ => true) high ∧
        IsRow e c.ports (fun j => j % 2 == 0) alternating) ∧
    Word.shiftLeft? 1 (Word.places n) = (if n < 64 then some (2 ^ n) else none) ∧
    ∀ i, ∀ j < n, Word.shiftRight? i (Word.places j) = if j < 64 then some (i / 2 ^ j) else none
  := by
  have inside : ∀ i ∈ dataInputs e (Roles.ofPorts e.ports) DataType.isScalarBit,
      ∃ p, e.ports[i]? = some p := fun i hi => exists_of_mem_dataInputs hi
  have listed : dataInputs e (Roles.ofPorts e.ports) DataType.isScalarBit ≠ [] :=
    List.ne_nil_of_length_pos (count ▸ positive)
  subst count
  refine ⟨combinations e (dataInputs e (Roles.ofPorts e.ports) DataType.isScalarBit) limits delay,
    ?_, rfl, ?_, ?_, ?_, ?_⟩
  · rw [combinations_ofEntity, if_neg listed]
  · intro within
    use length_rows inside few within word,
      fun i values => isRow_of_getElem?_rows inside few within,
      nodup_rows inside few within word, existsUnique_row inside few within word
  · intro beyond
    rw [← length_tableTypes inside] at beyond
    refine ⟨_, _, _, rows_of_lt beyond, ?_, ?_, ?_⟩
    · apply isRow_row inside
    · apply isRow_row inside
    · apply isRow_row inside
  · rw [Word.places_eq few, Word.shiftLeft?_one]
  · intro i j hj
    rw [Word.places_eq (hj.trans few), Word.shiftRight?_eq]

/-- A port of truth values has no range. -/
theorem isSome_range_boolean :
  (none : Option Range).isSome = DataType.boolean.isVector
  := rfl

/-- An entity with a clock, three data inputs of one bit, and an output. -/
def chooser : Entity where
  name := ⟨"chooser", by decide⟩
  generics := []
  ports :=
    [⟨⟨"clock_in", by decide⟩, .input, .stdLogic, none, none, by decide⟩,
      ⟨⟨"take_left", by decide⟩, .input, .boolean, none, none, isSome_range_boolean⟩,
      ⟨⟨"left_bit", by decide⟩, .input, .stdLogic, none, none, by decide⟩,
      ⟨⟨"right_bit", by decide⟩, .inout, .stdLogic, none, none, by decide⟩,
      ⟨⟨"chosen_bit", by decide⟩, .output, .stdLogic, none, none, by decide⟩]
  generics_distinct := List.nodup_nil
  ports_distinct := by decide

/-- With the greatest limits the table of the chooser has eight different rows, of which the one
with the number 5 sets the first and the third port; with a limit of two inputs it has three. -/
theorem combinations_ofEntity_chooser :
  dataInputs chooser (Roles.ofPorts chooser.ports) DataType.isScalarBit = [1, 2, 3] ∧
    (∃ c, (Plan.ofEntity chooser (Roles.ofPorts chooser.ports) ⟨2 ^ 64 - 1, 2 ^ 64 - 1⟩
          10).combinations = some c ∧
        c.rows.length = 8 ∧ c.rows.Nodup ∧
        ∀ values, c.rows[5]? = some values → values[0]? = some (.truth true) ∧
          values[1]? = some (.bit false) ∧ values[2]? = some (.bit true)) ∧
    ∃ c, (Plan.ofEntity chooser (Roles.ofPorts chooser.ports) ⟨2, 16⟩ 10).combinations = some c ∧
      c.rows.length = 3
  := by
  have inputs : dataInputs chooser (Roles.ofPorts chooser.ports) DataType.isScalarBit = [1, 2, 3] :=
    by decide
  have three := congrArg List.length inputs
  refine ⟨inputs, ?_, ?_⟩
  · obtain ⟨c, planned, ports, within, -⟩ := combinations_ofEntity_exhaustive chooser
      ⟨2 ^ 64 - 1, 2 ^ 64 - 1⟩ 10 three (by decide) (by decide) (by decide)
    obtain ⟨length, row, nodup, -⟩ := within (by decide)
    refine ⟨c, planned, length, nodup, ?_⟩
    intro values found
    have value := (row 5 values found).value
    rw [ports, inputs] at value
    use value 0 1 _ rfl rfl, value 1 2 _ rfl rfl, value 2 3 _ rfl rfl
  · obtain ⟨c, planned, -, -, beyond, -⟩ := combinations_ofEntity_exhaustive chooser
      ⟨2, 16⟩ 10 three (by decide) (by decide) (by decide)
    obtain ⟨low, high, alternating, rows, -⟩ := beyond (by decide)
    exact ⟨c, planned, congrArg List.length rows⟩

end Testbench.Stimulus
