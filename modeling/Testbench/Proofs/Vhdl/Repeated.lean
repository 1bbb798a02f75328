import Testbench.Proofs.Vhdl.Entity
import Mathlib.Data.List.Nodup
import Mathlib.Order.Bounds.Basic

/-!
# Repeated names

The name at an index is repeated when an earlier one is equal to it up to case.  A search by
hash finds the least such index, whichever hash it uses, as long as names that are the same have
the same hash.  The hash of a lower case form is of this kind in every alphabet, because
identifiers are written in ASCII.  So an entity is made of its parts exactly if its name is an
identifier and no name is repeated, and otherwise the first fault is blamed, `Entity.Blames`.
-/

namespace Testbench.Vhdl

variable {hash hash' : Identifier → Nat} {seen names : List Identifier} {n : Identifier} {i : Nat}

/-! ### The hash of a name -/

/-- Lower case in an alphabet that holds ASCII: what it does to other letters is left open. -/
def LowersAscii (lowercase : Text → Text) : Prop :=
  ∀ t : Text, (∀ c ∈ t, c.toNat < 128) → lowercase t = t.lower

/-- The lower case form of an identifier is the same in every alphabet. -/
theorem LowersAscii.identifier {lowercase : Text → Text} (h : LowersAscii lowercase)
    (i : Identifier) :
  lowercase i.text = i.key
  := by
  apply h
  intro c hc
  apply toNat_lt_of_isWordChar (i.isWord.forall_mem c hc)

/-- Names that are the same have the same hash when the hash is made of a lower case form. -/
theorem LowersAscii.respects {lowercase : Text → Text} (h : LowersAscii lowercase)
    (code : Text → Nat) :
  Identifier.Respects fun i => code (lowercase i.text)
  := by
  intro a b same
  have lowered : lowercase a.text = lowercase b.text := by
    rw [h.identifier a, h.identifier b, Identifier.same_iff.1 same]
  exact congrArg code lowered

/-- Which hash is used does not matter to what is found. -/
theorem firstRepeatedFrom?_congr (lawful : Identifier.Respects hash)
    (lawful' : Identifier.Respects hash') (seen names : List Identifier) :
  firstRepeatedFrom? hash seen names = firstRepeatedFrom? hash' seen names
  := by
  induction names generalizing seen with
  | nil => rfl
  | cons n names ih =>
    have known : isSeen hash seen n = isSeen hash' seen n := by
      rw [Bool.eq_iff_iff, isSeen_iff lawful, isSeen_iff lawful']
    rw [firstRepeatedFrom?, firstRepeatedFrom?, known, ih]

/-! ### The first repeated name -/

/-- The name at an index is equal, up to case, to the one at a lower index. -/
def Repeats (names : List Identifier) (i : Nat) : Prop :=
  ∃ j < i, ∃ m n, names[j]? = some m ∧ names[i]? = some n ∧ m.text.sameWord n.text

/-- No name is repeated exactly if the names are different up to case. -/
theorem not_repeats_iff :
  (∀ i, ¬Repeats names i) ↔ (names.map Identifier.key).Nodup
  := by
  rw [List.nodup_iff_getElem?_ne_getElem?]
  simp only [List.getElem?_map, List.length_map]
  constructor
  · intro apart j i lt bound eq
    have at_j : names[j]? = some names[j] := List.getElem?_eq_getElem (lt.trans bound)
    have at_i : names[i]? = some names[i] := List.getElem?_eq_getElem bound
    rw [at_j, at_i] at eq
    apply apart i ⟨j, lt, names[j], names[i], at_j, at_i, ?_⟩
    exact Text.sameWord_iff.2 (Option.some.inj eq)
  · rintro apart i ⟨j, lt, m, n, at_j, at_i, same⟩
    obtain ⟨bound, -⟩ := List.getElem?_eq_some_iff.1 at_i
    apply apart j i lt bound
    rw [at_j, at_i]
    exact congrArg some (Text.sameWord_iff.1 same)

/-- Nothing is found exactly if no name is repeated. -/
theorem firstRepeated?_eq_none_iff_forall :
  firstRepeated? names = none ↔ ∀ i, ¬Repeats names i
  := firstRepeated?_eq_none_iff.trans not_repeats_iff.symm

/-- A name that is found is seen before, or stands behind it among names that are all new. -/
theorem exists_of_firstRepeatedFrom?_eq_some (h : firstRepeatedFrom? hash seen names = some n) :
  ∃ before rest, names = before ++ n :: rest ∧ isSeen hash (before.reverse ++ seen) n ∧
    firstRepeatedFrom? hash seen before = none
  := by
  induction names generalizing seen with
  | nil => simp [firstRepeatedFrom?] at h
  | cons c names ih =>
    rw [firstRepeatedFrom?] at h
    split at h
    · next known =>
      obtain rfl := Option.some.inj h
      use [], names, rfl, known
      rfl
    · next new =>
      obtain ⟨before, rest, rfl, known, none⟩ := ih h
      use c :: before, rest, rfl
      constructor
      · rw [List.reverse_cons, List.append_assoc]
        exact known
      · rw [firstRepeatedFrom?, if_neg new, none]

/-- The name that is found is the first one that is repeated. -/
theorem isLeast_of_firstRepeated?_eq_some (h : firstRepeated? names = some n) :
  ∃ i, names[i]? = some n ∧ IsLeast {i | Repeats names i} i
  := by
  obtain ⟨before, rest, rfl, known, none⟩ := exists_of_firstRepeatedFrom?_eq_some h
  have at_n : (before ++ n :: rest)[before.length]? = some n := by simp
  have front : ∀ {j}, j < before.length → (before ++ n :: rest)[j]? = before[j]? :=
    List.getElem?_append_left
  use before.length, at_n
  constructor
  · rw [isSeen_iff Identifier.respects_hash, List.append_nil, List.map_reverse, List.mem_reverse,
      List.mem_map] at known
    obtain ⟨m, hm, same⟩ := known
    obtain ⟨j, hj⟩ := List.mem_iff_getElem?.1 hm
    obtain ⟨lt, -⟩ := List.getElem?_eq_some_iff.1 hj
    use j, lt, m, n, (front lt).trans hj, at_n, Text.sameWord_iff.2 same
  · rintro k ⟨j, lt, a, b, at_j, at_k, same⟩
    by_contra! below
    apply firstRepeated?_eq_none_iff_forall.1 none k
    use j, lt, a, b, (front (lt.trans below)).symm.trans at_j, (front below).symm.trans at_k, same

/-- A name is found exactly if it is the first one that is repeated. -/
theorem firstRepeated?_eq_some_iff :
  firstRepeated? names = some n ↔ ∃ i, names[i]? = some n ∧ IsLeast {i | Repeats names i} i
  := by
  constructor
  · apply isLeast_of_firstRepeated?_eq_some
  · rintro ⟨i, at_i, least⟩
    cases found : firstRepeated? names with
    | none => exact absurd least.1 (firstRepeated?_eq_none_iff_forall.1 found i)
    | some m =>
      obtain ⟨j, at_j, least'⟩ := isLeast_of_firstRepeated?_eq_some found
      obtain rfl := least.unique least'
      exact at_j.symm.trans at_i

/-- What has the name that is found is the first one whose name is repeated. -/
theorem firstRepeated?_map_eq_some_iff {α : Type} {f : α → Identifier} {xs : List α} :
  firstRepeated? (xs.map f) = some n ↔
    ∃ i x, xs[i]? = some x ∧ f x = n ∧ IsLeast {i | Repeats (xs.map f) i} i
  := by
  simp only [firstRepeated?_eq_some_iff, List.getElem?_map, Option.map_eq_some_iff]
  constructor
  · rintro ⟨i, ⟨x, at_x, rfl⟩, least⟩
    use i, x
  · rintro ⟨i, x, at_x, rfl, least⟩
    use i, ⟨x, at_x, rfl⟩

/-! ### Entities and their faults -/

namespace Entity

variable {name : Text} {generics : List Generic} {ports : List Port} {error : Error}

/-- The first fault of the parts of an entity: of its name, of its generics or of its ports. -/
inductive Blames (name : Text) (generics : List Generic) (ports : List Port) : Error → Prop
  | name : ¬IsBasic name → Blames name generics ports (.invalidIdentifier name)
  | generic {i : Nat} {g : Generic} : IsBasic name → generics[i]? = some g →
      IsLeast {i | Repeats (generics.map (·.name)) i} i →
      Blames name generics ports (.malformedGeneric g.name.text .repeatedName)
  | port {i : Nat} {p : Port} : IsBasic name → (∀ i, ¬Repeats (generics.map (·.name)) i) →
      ports[i]? = some p → IsLeast {i | Repeats (ports.map (·.name)) i} i →
      Blames name generics ports (.duplicatePort p.name.text)

/-- Parts without a fault make an entity. -/
theorem exists_ofParts_eq_ok_iff :
  (∃ e, ofParts name generics ports = .ok e) ↔
    IsBasic name ∧ (∀ i, ¬Repeats (generics.map (·.name)) i) ∧
      ∀ i, ¬Repeats (ports.map (·.name)) i
  := by
  simp only [ofParts_eq_ok_iff, not_repeats_iff, List.map_map]
  constructor
  · rintro ⟨e, rfl, rfl, rfl⟩
    use e.name.isBasic, e.generics_distinct, e.ports_distinct
  · rintro ⟨basic, generics_distinct, ports_distinct⟩
    use ⟨⟨name, Identifier.fault?_eq_none_iff.2 basic⟩, generics, ports, generics_distinct,
      ports_distinct⟩

/-- Parts with a fault make no entity, and the fault is told. -/
theorem Blames.ofParts_eq (h : Blames name generics ports error) :
  ofParts name generics ports = .error error
  := by
  have withName (basic : IsBasic name) : ∃ i : Identifier,
      ofParts name generics ports = ofLists i generics ports := by
    obtain ⟨i, rfl⟩ : ∃ i : Identifier, i.text = name :=
      ⟨⟨name, Identifier.fault?_eq_none_iff.2 basic⟩, rfl⟩
    use i
    rw [ofParts, Identifier.ofText_eq_ok_iff.2 rfl]
  cases h with
  | name other =>
    rw [ofParts]
    cases read : Identifier.ofText name with
    | error _ => rfl
    | ok i =>
      obtain rfl := Identifier.ofText_eq_ok_iff.1 read
      exact absurd i.isBasic other
  | generic basic at_g least =>
    obtain ⟨i, eq⟩ := withName basic
    have found := firstRepeated?_map_eq_some_iff.2 ⟨_, _, at_g, rfl, least⟩
    rw [eq, ofLists_of_repeatedGeneric found]
  | port basic none at_p least =>
    obtain ⟨i, eq⟩ := withName basic
    have found := firstRepeated?_map_eq_some_iff.2 ⟨_, _, at_p, rfl, least⟩
    rw [eq, ofLists_of_repeatedPort (firstRepeated?_eq_none_iff_forall.2 none) found]

/-- Parts that make no entity have a fault. -/
theorem exists_blames (h : ¬∃ e, ofParts name generics ports = .ok e) :
  ∃ error, Blames name generics ports error
  := by
  rw [exists_ofParts_eq_ok_iff] at h
  by_cases basic : IsBasic name
  · cases hg : firstRepeated? (generics.map (·.name)) with
    | some _ =>
      obtain ⟨i, g, at_g, -, least⟩ := firstRepeated?_map_eq_some_iff.1 hg
      exact ⟨_, .generic basic at_g least⟩
    | none =>
      rw [firstRepeated?_eq_none_iff_forall] at hg
      cases hp : firstRepeated? (ports.map (·.name)) with
      | some _ =>
        obtain ⟨i, p, at_p, -, least⟩ := firstRepeated?_map_eq_some_iff.1 hp
        exact ⟨_, .port basic hg at_p least⟩
      | none => exact absurd ⟨basic, hg, firstRepeated?_eq_none_iff_forall.1 hp⟩ h
  · exact ⟨_, .name basic⟩

/-- Parts make no entity exactly if they have a fault. -/
theorem ofParts_eq_error_iff :
  ofParts name generics ports = .error error ↔ Blames name generics ports error
  := by
  constructor
  · intro h
    have refused : ¬∃ e, ofParts name generics ports = .ok e := by simp [h]
    obtain ⟨error', fault⟩ := exists_blames refused
    obtain rfl := Except.error.inj (h.symm.trans fault.ofParts_eq)
    exact fault
  · apply Blames.ofParts_eq

/-- Parts make an entity, which keeps them, exactly if the name is an identifier and neither two
generics nor two ports have the same name; otherwise the first fault is blamed.  Names that are the
same have the same hash, and what is found does not depend on the code and the alphabet in which the
hash is made. -/
theorem ofParts_blames_first (name : Text) (generics : List Generic) (ports : List Port) :
  (∀ e, ofParts name generics ports = .ok e →
    e.name.text = name ∧ e.generics = generics ∧ e.ports = ports) ∧
  ((∃ e, ofParts name generics ports = .ok e) ↔
    IsBasic name ∧ (generics.Pairwise fun g h => ¬g.name.text.sameWord h.name.text) ∧
      ports.Pairwise fun p q => ¬p.name.text.sameWord q.name.text) ∧
  (∀ error, ofParts name generics ports = .error error ↔ Blames name generics ports error) ∧
  (∀ a b : Identifier, a.text.sameWord b.text → a.hash = b.hash) ∧
  ∀ lowercase, LowersAscii lowercase → ∀ code : Text → Nat,
    (∀ a b : Identifier, a.text.sameWord b.text →
      code (lowercase a.text) = code (lowercase b.text)) ∧
    ∀ names, firstRepeatedFrom? (fun i => code (lowercase i.text)) [] names = firstRepeated? names
  := by
  refine ⟨?_, ?_, ?_, Identifier.respects_hash, ?_⟩
  · intro e
    apply ofParts_eq_ok_iff.1
  · rw [exists_ofParts_eq_ok_iff, not_repeats_iff, not_repeats_iff, List.map_map, List.map_map]
    exact and_congr_right fun _ => and_congr Identifier.nodup_key_iff Identifier.nodup_key_iff
  · intro error
    apply ofParts_eq_error_iff
  · intro lowercase ascii code
    have lawful := ascii.respects code
    use lawful
    intro names
    exact firstRepeatedFrom?_congr lawful Identifier.respects_hash [] names

/-- A queue with two generics, each of which is declared again in another case. -/
def queueGenerics : List Generic :=
  [⟨⟨"slots", by decide⟩, "natural", none⟩, ⟨⟨"slot_size", by decide⟩, "natural", none⟩,
    ⟨⟨"SLOT_SIZE", by decide⟩, "positive", none⟩, ⟨⟨"Slots", by decide⟩, "positive", none⟩]

/-- The generic that is repeated first is blamed, although the other one was declared before it. -/
theorem ofParts_queue :
  ofParts "queue" queueGenerics [] = .error (.malformedGeneric "SLOT_SIZE" .repeatedName)
  := by
  have basic : IsBasic "queue" := Identifier.fault?_eq_none_iff.1 (by decide)
  have least : IsLeast {i | Repeats (queueGenerics.map (·.name)) i} 2 := by
    constructor
    · exact ⟨1, by decide, _, _, rfl, rfl, by decide⟩
    · rintro k ⟨j, lt, m, n, at_j, at_k, same⟩
      by_contra! below
      obtain ⟨rfl, rfl⟩ : j = 0 ∧ k = 1 := by omega
      obtain rfl := Option.some.inj at_j
      obtain rfl := Option.some.inj at_k
      exact absurd same (by decide)
  obtain ⟨-, -, blamed, -⟩ := ofParts_blames_first "queue" queueGenerics []
  exact (blamed _).2 (.generic (i := 2) basic rfl least)

end Entity

end Testbench.Vhdl
