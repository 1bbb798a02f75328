import Testbench.Bench.Constant

/-!
# Where the values of constants and signals come from

A constant has a configured value, the default of its generic or a value named for its type.  A
signal has the default of its port, the high impedance value or the initial value of its type.
-/

namespace Testbench.Bench

open Vhdl Stimulus

variable {config : Config} {g : Generic} {p : Port} {t v type : Text} {value : Option Text}

theorem source_of_constantValue (h : constantValue config g = .ok t) :
  (∃ entry ∈ config.generics.entries, entry.2 = t) ∨ g.default = some t ∨
    placeholder? g.type = some t
  := by
  rw [constantValue] at h
  split at h
  · next v found =>
    obtain rfl := Except.ok.inj h
    cases configured : config.generic? g.name.text with
    | some value =>
      obtain ⟨entry, listed, rfl⟩ := Option.map_eq_some_iff.1 configured
      obtain rfl : entry.2 = v := by simpa [configured] using found
      exact .inl ⟨entry, List.mem_of_find?_eq_some listed, rfl⟩
    | none =>
      cases default : g.default with
      | some value =>
        obtain rfl : value = v := by simpa [configured, default] using found
        exact .inr (.inl rfl)
      | none =>
        have placed : placeholder? g.type = some v := by simpa [configured, default] using found
        exact .inr (.inr placed)
  · contradiction

/-- A value that is named for a type is listed with the type or fills an array. -/
theorem source_of_placeholder? (h : placeholder? type = some v) :
  (∃ entry ∈ scalarPlaceholders, entry.2 = v) ∨ v = "(others => '0')"
  := by
  rw [placeholder?] at h
  split at h
  · next w found =>
    obtain rfl := Option.some.inj h
    obtain ⟨before, behind, split, -⟩ := List.lookup_eq_some_iff.1 found
    refine .inl ⟨(baseType type, w), ?_, rfl⟩
    rw [split]
    simp
  · split at h
    · exact .inr (Option.some.inj h).symm
    · contradiction

theorem source_of_highImpedance? {type : DataType} (h : highImpedance? type = some v) :
  v = "'Z'" ∨ v = "(others => 'Z')"
  := by
  cases type <;> first | exact .inl (Option.some.inj h).symm | exact .inr (Option.some.inj h).symm |
    contradiction

theorem source_of_initialValue (h : initialValue p = .ok value) (hv : v ∈ value) :
  p.default = some v ∨ highImpedance? p.type = some v ∨ render (.initial p.type) p = .ok v
  := by
  have initial : (render (.initial p.type) p).map some = .ok value →
      render (.initial p.type) p = .ok v := by
    intro h
    cases rendered : render (.initial p.type) p with
    | error _ =>
      rw [rendered] at h
      contradiction
    | ok t =>
      rw [rendered] at h
      obtain rfl := Except.ok.inj h
      rw [Option.some.inj hv]
  obtain ⟨name, mode, type, range, default, hrange⟩ := p
  cases mode with
  | output =>
    obtain rfl := Except.ok.inj h
    contradiction
  | input =>
    cases default with
    | none => exact .inr (.inr (initial h))
    | some d =>
      obtain rfl := Except.ok.inj h
      exact .inl hv
  | inout =>
    simp only [initialValue] at h
    cases impedance : highImpedance? type with
    | none =>
      rw [impedance] at h
      exact .inr (.inr (initial h))
    | some d =>
      rw [impedance] at h
      obtain rfl := Except.ok.inj h
      exact .inr (.inl hv)

end Testbench.Bench
