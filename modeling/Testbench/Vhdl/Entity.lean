import Testbench.Vhdl.Generic
import Testbench.Vhdl.Port

/-!
# Entities

An entity has a name, generics and ports.  The names of its generics are pairwise
different up to case, and so are the names of its ports; `Entity.ofParts` checks this and
blames the first name that repeats an earlier one.  Earlier names are found by their hashes.
-/

namespace Testbench.Vhdl

/-- Whether a name is the same as one of `seen`, where it is compared only with those that
have its hash. -/
def isSeen (hash : Identifier → Nat) (seen : List Identifier) (n : Identifier) : Bool :=
  seen.any fun m => hash m == hash n && m.same n

/-- The first of `names` that is the same as an earlier one or as one of `seen`, where names
are found by their hashes. -/
def firstRepeatedFrom? (hash : Identifier → Nat) (seen : List Identifier) :
    List Identifier → Option Identifier
  | [] => none
  | n :: r => if isSeen hash seen n then some n else firstRepeatedFrom? hash (n :: seen) r

/-- The first of `names` that is the same as an earlier one. -/
def firstRepeated? (names : List Identifier) : Option Identifier :=
  firstRepeatedFrom? Identifier.hash [] names

section

variable {hash : Identifier → Nat} (lawful : Identifier.Respects hash) {seen : List Identifier}
include lawful

/-- When names that are the same have the same hash, no name that is seen is overlooked. -/
theorem isSeen_iff {n : Identifier} :
  isSeen hash seen n ↔ n.key ∈ seen.map Identifier.key
  := by
  simp only [isSeen, List.any_eq_true, Bool.and_eq_true, beq_iff_eq, List.mem_map]
  constructor
  · rintro ⟨m, hm, -, same⟩
    exact ⟨m, hm, Identifier.same_iff.1 same⟩
  · rintro ⟨m, hm, eq⟩
    have same : m.same n := Identifier.same_iff.2 eq
    exact ⟨m, hm, lawful m n same, same⟩

/-- No name is repeated exactly if the names are different from those seen before and
from each other, up to case. -/
theorem firstRepeatedFrom?_eq_none_iff {names : List Identifier} :
  firstRepeatedFrom? hash seen names = none ↔
    (∀ n ∈ names, n.key ∉ seen.map Identifier.key) ∧ (names.map Identifier.key).Nodup
  := by
  induction names generalizing seen with
  | nil => simp [firstRepeatedFrom?]
  | cons n r ih =>
    rw [firstRepeatedFrom?]
    split
    · next h =>
      rw [isSeen_iff lawful] at h
      simp only [reduceCtorEq, false_iff]
      rintro ⟨fresh, -⟩
      exact fresh n List.mem_cons_self h
    · next h =>
      rw [isSeen_iff lawful] at h
      rw [ih]
      simp only [List.mem_cons, List.map_cons, List.nodup_cons, List.mem_map, not_or,
        forall_eq_or_imp] at h ⊢
      constructor
      · rintro ⟨fresh, distinct⟩
        refine ⟨⟨h, fun m hm => (fresh m hm).2⟩, ?_, distinct⟩
        rintro ⟨m, hm, eq⟩
        exact (fresh m hm).1 eq
      · rintro ⟨⟨-, fresh⟩, apart, distinct⟩
        exact ⟨fun m hm => ⟨fun eq => apart ⟨m, hm, eq⟩, fresh m hm⟩, distinct⟩

end

/-- No name is repeated exactly if the names are different up to case. -/
theorem firstRepeated?_eq_none_iff {names : List Identifier} :
  firstRepeated? names = none ↔ (names.map Identifier.key).Nodup
  := by
  rw [firstRepeated?, firstRepeatedFrom?_eq_none_iff Identifier.respects_hash]
  simp

/-- A hardware entity as its declaration describes it. -/
structure Entity where
  name : Identifier
  generics : List Generic
  ports : List Port
  generics_distinct : (generics.map (·.name.key)).Nodup
  ports_distinct : (ports.map (·.name.key)).Nodup

namespace Entity

instance : DecidableEq Entity := fun a b =>
  decidable_of_iff (a.name = b.name ∧ a.generics = b.generics ∧ a.ports = b.ports)
    (by cases a; cases b; simp)

/-- An entity with generics and ports, provided that no name is repeated among the
generics or among the ports. -/
def ofLists (name : Identifier) (generics : List Generic) (ports : List Port) :
    Except Error Entity :=
  match hg : firstRepeated? (generics.map (·.name)) with
  | some n => .error (.malformedGeneric n.text .repeatedName)
  | none =>
    match hp : firstRepeated? (ports.map (·.name)) with
    | some n => .error (.duplicatePort n.text)
    | none =>
      .ok ⟨name, generics, ports,
        by simpa [Function.comp_def] using firstRepeated?_eq_none_iff.1 hg,
        by simpa [Function.comp_def] using firstRepeated?_eq_none_iff.1 hp⟩

/-- An entity with a name, generics and ports, provided that the name is an identifier
and no name is repeated among the generics or among the ports. -/
def ofParts (name : Text) (generics : List Generic) (ports : List Port) :
    Except Error Entity :=
  match Identifier.ofText name with
  | .error _ => .error (.invalidIdentifier name)
  | .ok name => ofLists name generics ports

/-- The names of the ports and then of the generics. -/
def interfaceNames (e : Entity) : List Identifier :=
  e.ports.map (·.name) ++ e.generics.map (·.name)

/-- Whether a port, a generic or the entity itself has a name, up to case. -/
def isTaken (e : Entity) (name : Text) : Bool :=
  (e.interfaceNames ++ [e.name]).any fun n => n.text.sameWord name

end Entity

end Testbench.Vhdl
