import Testbench.Text.Basic

/-!
# Dictionaries

A `Dictionary` gives texts to keys.  Its entries are in the order of their keys, which is
the order of code points, and no key has two entries.
-/

namespace Testbench

/-- Entries with increasing keys. -/
structure Dictionary where
  entries : List (Text × Text)
  sorted : (entries.map (·.1)).Pairwise (· < ·)
  deriving DecidableEq

namespace Dictionary

/-- The dictionary without entries. -/
def empty : Dictionary := ⟨[], .nil⟩

/-- The entries with a value for a key.  A value that the key has already is replaced
only if this is asked for. -/
def enter (replace : Bool) (key value : Text) : List (Text × Text) → List (Text × Text)
  | [] => [(key, value)]
  | (k, v) :: r =>
      if key < k then (key, value) :: (k, v) :: r
      else if key = k then (k, if replace then value else v) :: r
      else (k, v) :: enter replace key value r

/-- The keys of the entries with one more are the keys before and the new one. -/
theorem mem_keys_enter {replace : Bool} {key value k : Text} {entries : List (Text × Text)} :
  k ∈ (enter replace key value entries).map (·.1) ↔ k = key ∨ k ∈ entries.map (·.1)
  := by
  induction entries with
  | nil => simp [enter]
  | cons e r ih =>
    obtain ⟨k', v⟩ := e
    rw [enter]
    split
    · simp
    · split
      · next h => simp [h]
      · rw [List.map_cons, List.mem_cons, ih, List.map_cons, List.mem_cons]
        exact or_left_comm

/-- Entering a value keeps the order of the keys. -/
theorem sorted_enter {replace : Bool} {key value : Text} {entries : List (Text × Text)}
    (h : (entries.map (·.1)).Pairwise (· < ·)) :
  ((enter replace key value entries).map (·.1)).Pairwise (· < ·)
  := by
  induction entries with
  | nil => simp [enter]
  | cons e r ih =>
    obtain ⟨k, v⟩ := e
    rw [List.map_cons, List.pairwise_cons] at h
    rw [enter]
    split
    · next lt =>
      simp only [List.map_cons, List.pairwise_cons, List.mem_cons, forall_eq_or_imp]
      exact ⟨⟨lt, fun k' hk' => List.lt_trans lt (h.1 k' hk')⟩, h.1, h.2⟩
    · next ge =>
      split
      · rw [List.map_cons, List.pairwise_cons]
        exact h
      · next ne =>
        rw [List.map_cons, List.pairwise_cons]
        refine ⟨fun k' hk' => ?_, ih h.2⟩
        rcases mem_keys_enter.1 hk' with rfl | hk'
        · apply Classical.byContradiction
          intro le
          exact ne (List.le_antisymm (List.not_lt.1 le) (List.not_lt.1 ge))
        · exact h.1 k' hk'

/-- The value of a key. -/
def get? (d : Dictionary) (key : Text) : Option Text := d.entries.lookup key

/-- The dictionary with a value for a key, in place of one that it has already. -/
def put (d : Dictionary) (key value : Text) : Dictionary :=
  ⟨enter true key value d.entries, sorted_enter d.sorted⟩

/-- The dictionary with a value for a key, unless it has one already. -/
def add (d : Dictionary) (key value : Text) : Dictionary :=
  ⟨enter false key value d.entries, sorted_enter d.sorted⟩

/-- The dictionary with given entries; of several for a key the last one counts. -/
def ofList (entries : List (Text × Text)) : Dictionary :=
  entries.foldl (fun d (k, v) => d.put k v) empty

end Dictionary

end Testbench
