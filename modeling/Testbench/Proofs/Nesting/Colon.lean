import Testbench.Proofs.Nesting.Split

/-!
# Colons and assignments

A declaration is taken apart at a colon and at an assignment `:=`.  Whether either stands at
a place depends on the two characters there and on nothing before them, so that a text can be
searched by itself when what follows it does not begin with `=`.
-/

namespace Testbench.Vhdl

open Nesting

variable {n : Nesting} {prev prev' : Option Char} {s t r r' before rest : Text}

/-- A colon that begins no assignment stands at a place. -/
def isColonAt (_ : Option Char) (t : Text) : Bool :=
  t.head? == some ':' && t.tail.head? != some '='

/-- An assignment stands at a place. -/
def isAssignmentAt (_ : Option Char) (t : Text) : Bool :=
  t.head? == some ':' && t.tail.head? == some '='

/-- A text is taken apart at the first colon at the outer level that begins no
assignment. -/
theorem splitColon?_eq_some_iff :
  splitColon? t = some (before, rest) ↔
    t = before ++ ':' :: rest ∧ Misses isColonAt outer none before (':' :: rest) ∧
      outer.after before = outer ∧ rest.head? ≠ some '='
  := by
  have search : splitColon? t =
    (splitWhere isColonAt outer none t).map fun parts => (parts.1, parts.2.drop 1) := rfl
  simp only [search, Option.map_eq_some_iff, Prod.exists, Prod.mk.injEq, splitWhere_eq_some_iff,
    isOuter_iff]
  constructor
  · rintro ⟨before, rest, ⟨rfl, misses, -, ends, found⟩, rfl, rfl⟩
    cases rest with
    | nil => simp [isColonAt] at found
    | cons c rest =>
      simp only [isColonAt, List.head?_cons, List.tail_cons, Bool.and_eq_true, beq_iff_eq,
        Option.some.injEq, bne_iff_ne] at found
      obtain ⟨rfl, found⟩ := found
      use rfl, misses, ends, found
  · rintro ⟨rfl, misses, ends, found⟩
    use before, ':' :: rest
    refine ⟨⟨rfl, misses, by simp, ends, ?_⟩, rfl, rfl⟩
    simpa [isColonAt] using found

/-- A text is taken apart at the first assignment at the outer level. -/
theorem splitAssignment?_eq_some_iff :
  splitAssignment? t = some (before, rest) ↔
    t = before ++ ':' :: '=' :: rest ∧
      Misses isAssignmentAt outer none before (':' :: '=' :: rest) ∧ outer.after before = outer
  := by
  have search : splitAssignment? t =
    (splitWhere isAssignmentAt outer none t).map fun parts => (parts.1, parts.2.drop 2) := rfl
  simp only [search, Option.map_eq_some_iff, Prod.exists, Prod.mk.injEq, splitWhere_eq_some_iff,
    isOuter_iff]
  constructor
  · rintro ⟨before, rest, ⟨rfl, misses, -, ends, found⟩, rfl, rfl⟩
    rcases rest with _ | ⟨c, _ | ⟨d, rest⟩⟩
    · simp [isAssignmentAt] at found
    · simp [isAssignmentAt] at found
    · simp only [isAssignmentAt, List.head?_cons, List.tail_cons, Bool.and_eq_true, beq_iff_eq,
        Option.some.injEq] at found
      obtain ⟨rfl, rfl⟩ := found
      use rfl, misses, ends
  · rintro ⟨rfl, misses, ends⟩
    use before, ':' :: '=' :: rest
    refine ⟨⟨rfl, misses, by simp, ends, by simp [isAssignmentAt]⟩, rfl, rfl⟩

/-- A text is not taken apart exactly if it misses assignments. -/
theorem splitAssignment?_eq_none_iff :
  splitAssignment? t = none ↔ Misses isAssignmentAt outer none t []
  := by
  rw [← splitWhere_eq_none_iff]
  apply Option.map_eq_none_iff

/-- What surrounds a text does not matter to its assignments, unless it goes on with `=`. -/
theorem misses_isAssignmentAt_congr (hr : r.head? ≠ some '=') (hr' : r'.head? ≠ some '=') :
  Misses isAssignmentAt n prev s r ↔ Misses isAssignmentAt n prev' s r'
  := by
  induction s generalizing n prev prev' with
  | nil => simp
  | cons c s ih =>
    rw [misses_cons, misses_cons, ih]
    apply and_congr_left
    intro _
    cases s with
    | nil => simp [isAssignmentAt, hr, hr']
    | cons d s => simp [isAssignmentAt]

/-- A text without a colon misses assignments. -/
theorem misses_isAssignmentAt_of_not_mem (h : ':' ∉ s) :
  Misses isAssignmentAt n prev s r
  := by
  apply misses_of_lacks _ (lacks_of_not_mem h)
  intro prev t ht
  simp only [isAssignmentAt, Bool.and_eq_true, beq_iff_eq] at ht
  apply ht.1

/-- Blanks miss assignments. -/
theorem misses_isAssignmentAt_of_isBlank (h : ∀ c ∈ s, isBlank c) :
  Misses isAssignmentAt n prev s r
  := misses_isAssignmentAt_of_not_mem fun mem => absurd (h ':' mem) (by decide)

/-- The trim of a text that misses assignments misses them. -/
theorem misses_isAssignmentAt_trim (h : Misses isAssignmentAt outer none s r)
    (hr : r.head? ≠ some '=') :
  Misses isAssignmentAt outer none s.trim []
  := by
  obtain ⟨a, b, ha, hb, split⟩ := s.exists_blanks_trim
  rw [← split, List.append_assoc, misses_append, misses_append, after_of_isBlank ha] at h
  apply (misses_isAssignmentAt_congr _ (by simp)).1 h.2.1
  cases b with
  | nil => apply hr
  | cons c b =>
    rintro same
    obtain rfl : c = '=' := by simpa using same
    exact absurd (hb '=' List.mem_cons_self) (by decide)

end Testbench.Vhdl
