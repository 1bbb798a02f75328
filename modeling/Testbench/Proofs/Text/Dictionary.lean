import Testbench.Text.Dictionary
import Mathlib.Tactic.Common

/-!
# Entries of dictionaries

What a dictionary holds is told by one equation for each way to enter a value: only the value of
the key that is entered is another one.
-/

namespace Testbench.Dictionary

variable {replace : Bool} {key value : Text} {entries : List (Text × Text)}

theorem lookup_cons (key value k : Text) (entries : List (Text × Text)) :
  ((key, value) :: entries).lookup k = if k = key then some value else entries.lookup k
  := by
  rw [List.lookup_cons]
  by_cases same : k = key
  · rw [beq_iff_eq.2 same, if_pos same]
  · rw [beq_eq_false_iff_ne.2 same, if_neg same]

/-- A key before all others has no value. -/
theorem lookup_eq_none_of_lt (h : ∀ k ∈ entries.map (·.1), key < k) :
  entries.lookup key = none
  := by
  rw [List.lookup_eq_none_iff]
  intro entry mem
  have before := h entry.1 (List.mem_map_of_mem mem)
  rw [bne_iff_ne]
  rintro rfl
  apply List.lt_irrefl _ before

/-- Entering a value changes the value of its key, and of no other. -/
theorem lookup_enter (sorted : (entries.map (·.1)).Pairwise (· < ·)) (k : Text) :
  (enter replace key value entries).lookup k =
    if k = key then some (if replace then value else (entries.lookup key).getD value)
    else entries.lookup k
  := by
  induction entries with
  | nil =>
    rw [enter, lookup_cons]
    simp
  | cons entry r ih =>
    obtain ⟨k', v⟩ := entry
    rw [List.map_cons, List.pairwise_cons] at sorted
    rw [enter]
    split
    · next before =>
      -- the key has no value yet, because it is before all others
      have absent : ((k', v) :: r).lookup key = none := by
        apply lookup_eq_none_of_lt
        rw [List.map_cons, List.forall_mem_cons]
        use before
        intro k hk
        apply List.lt_trans before (sorted.1 k hk)
      rw [lookup_cons, absent, Option.getD_none, ite_self]
    · split
      · next same =>
        subst same
        rw [lookup_cons, lookup_cons, lookup_cons, if_pos rfl, Option.getD_some]
        by_cases here : k = key
        · rw [if_pos here, if_pos here]
        · rw [if_neg here, if_neg here, if_neg here]
      · next different =>
        rw [lookup_cons, lookup_cons, lookup_cons, if_neg different, ih sorted.2]
        by_cases here : k = k'
        · rw [if_pos here, if_pos here, if_neg]
          rintro rfl
          apply different here
        · rw [if_neg here, if_neg here]

/-- A value that is put is that of its key. -/
theorem get?_put (d : Dictionary) (key value k : Text) :
  (d.put key value).get? k = if k = key then some value else d.get? k
  := lookup_enter d.sorted k

/-- A value that is added is that of its key unless the key had one before. -/
theorem get?_add (d : Dictionary) (key value k : Text) :
  (d.add key value).get? k = if k = key then some ((d.get? key).getD value) else d.get? k
  := lookup_enter d.sorted k

end Testbench.Dictionary
