import Testbench.Proofs.Nesting.Word
import Testbench.Proofs.Vhdl.Identifier
import Testbench.Vhdl.Entity

/-!
# Entities and their parts

Identifiers, ports and entities carry the proofs that they are well-formed.  They are made
of their parts exactly if such a proof exists, and are then told by their parts.
-/

namespace Testbench.Vhdl

/-- The texts that follow the grammar of identifiers are words. -/
theorem IsBasic.isWord {t : Text} (h : IsBasic t) :
  IsWord t
  := by
  have tail : ∀ t : Text, IsBasicTail t → ∀ c ∈ t, isWordChar c := by
    intro t h
    induction h with
    | nil => simp
    | next kind _ ih =>
      rw [List.forall_mem_cons]
      exact ⟨isWordChar_iff.2 (Or.inl kind), ih⟩
    | underlined kind _ ih =>
      rw [List.forall_mem_cons, List.forall_mem_cons]
      exact ⟨by decide, isWordChar_iff.2 (Or.inl kind), ih⟩
  obtain ⟨letter, rest⟩ := h
  use by simp
  rw [List.forall_mem_cons]
  exact ⟨isWordChar_iff.2 (Or.inl (Or.inl letter)), tail _ rest⟩

namespace Identifier

/-- An identifier is read from its own text and from no other. -/
@[simp]
theorem ofText_eq_ok_iff {t : Text} {i : Identifier} :
  ofText t = .ok i ↔ i.text = t
  := by
  constructor
  · intro h
    rw [ofText] at h
    split at h
    · apply congrArg text (Except.ok.inj h).symm
    · simp at h
  · rintro rfl
    rw [ofText]
    split
    · rfl
    · next fault =>
      rw [i.valid] at fault
      contradiction

/-- Identifiers are words. -/
theorem isWord (i : Identifier) :
  IsWord i.text
  := i.isBasic.isWord

/-- Names do not repeat exactly if they are different up to case. -/
theorem nodup_key_iff {α : Type} {f : α → Identifier} {l : List α} :
  (l.map fun x => (f x).key).Nodup ↔ l.Pairwise fun x y => ¬(f x).text.sameWord (f y).text
  := by
  rw [List.Nodup, List.pairwise_map]
  apply List.Pairwise.iff
  intro x y
  rw [Text.sameWord_iff]
  rfl

end Identifier

/-- The names of data types are words. -/
theorem DataType.isWord_name (d : DataType) :
  IsWord d.name
  := by
  cases d <;> exact ⟨by decide, by decide⟩

/-- The names of modes are words. -/
theorem Mode.isWord_name (m : Mode) :
  IsWord m.name
  := by
  cases m <;> exact ⟨by decide, by decide⟩

/-- A port is made of its parts and of no others. -/
theorem Port.ofParts_eq_ok_iff {name : Identifier} {mode : Mode} {type : DataType}
    {range : Option Range} {default : Option Text} {p : Port} :
  ofParts name mode type range default = .ok p ↔
    p.name = name ∧ p.mode = mode ∧ p.type = type ∧ p.range = range ∧ p.default = default
  := by
  rw [ofParts]
  constructor
  · intro h
    split at h
    · obtain rfl := (Except.ok.inj h).symm
      simp
    · simp at h
  · rintro ⟨rfl, rfl, rfl, rfl, rfl⟩
    rw [dif_pos p.range_isSome]

namespace Entity

/-- An entity is made of its generics and ports and of no others. -/
theorem ofLists_eq_ok_iff {name : Identifier} {generics : List Generic} {ports : List Port}
    {e : Entity} :
  ofLists name generics ports = .ok e ↔
    e.name = name ∧ e.generics = generics ∧ e.ports = ports
  := by
  constructor
  · intro h
    rw [ofLists] at h
    split at h
    · simp at h
    · split at h
      · simp at h
      · obtain rfl := (Except.ok.inj h).symm
        simp
  · rintro ⟨rfl, rfl, rfl⟩
    have distinct : ∀ {names : List Identifier}, (names.map Identifier.key).Nodup →
        firstRepeated? names = none := by
      intro names h
      apply firstRepeated?_eq_none_iff.2 h
    have generics : firstRepeated? (e.generics.map (·.name)) = none := by
      apply distinct
      simpa [Function.comp_def] using e.generics_distinct
    have ports : firstRepeated? (e.ports.map (·.name)) = none := by
      apply distinct
      simpa [Function.comp_def] using e.ports_distinct
    rw [ofLists]
    split
    · next h => simp [generics] at h
    · split
      · next h => simp [ports] at h
      · rfl

/-- A repeated name among the generics is blamed first. -/
theorem ofLists_of_repeatedGeneric {name n : Identifier} {generics : List Generic}
    {ports : List Port} (h : firstRepeated? (generics.map (·.name)) = some n) :
  ofLists name generics ports = .error (.malformedGeneric n.text .repeatedName)
  := by
  rw [ofLists]
  split
  · next h' =>
    rw [h] at h'
    rw [Option.some.inj h']
  · next h' =>
    rw [h] at h'
    contradiction

/-- A repeated name among the ports is blamed if there is none among the generics. -/
theorem ofLists_of_repeatedPort {name n : Identifier} {generics : List Generic}
    {ports : List Port} (hg : firstRepeated? (generics.map (·.name)) = none)
    (hp : firstRepeated? (ports.map (·.name)) = some n) :
  ofLists name generics ports = .error (.duplicatePort n.text)
  := by
  rw [ofLists]
  split
  · next h =>
    rw [hg] at h
    contradiction
  · split
    · next h =>
      rw [hp] at h
      rw [Option.some.inj h]
    · next h =>
      rw [hp] at h
      contradiction

/-- Lists without repeated names make an entity. -/
theorem exists_ofLists_eq_ok (name : Identifier) {generics : List Generic} {ports : List Port}
    (hg : firstRepeated? (generics.map (·.name)) = none)
    (hp : firstRepeated? (ports.map (·.name)) = none) :
  ∃ e, ofLists name generics ports = .ok e
  := by
  rw [ofLists]
  split
  · next h =>
    rw [hg] at h
    contradiction
  · split
    · next h =>
      rw [hp] at h
      contradiction
    · exact ⟨_, rfl⟩

/-- An entity is made of the text of its name, its generics and its ports. -/
theorem ofParts_eq_ok_iff {name : Text} {generics : List Generic} {ports : List Port}
    {e : Entity} :
  ofParts name generics ports = .ok e ↔
    e.name.text = name ∧ e.generics = generics ∧ e.ports = ports
  := by
  constructor
  · intro h
    rw [ofParts] at h
    split at h
    · simp at h
    · next i read =>
      rw [ofLists_eq_ok_iff] at h
      rw [h.1]
      use Identifier.ofText_eq_ok_iff.1 read, h.2.1, h.2.2
  · rintro ⟨rfl, generics, ports⟩
    rw [ofParts, Identifier.ofText_eq_ok_iff.2 rfl]
    apply ofLists_eq_ok_iff.2 ⟨rfl, generics, ports⟩

end Entity

end Testbench.Vhdl
