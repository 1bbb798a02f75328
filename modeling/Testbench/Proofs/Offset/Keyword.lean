import Testbench.Proofs.Offset.Place
import Mathlib.Order.Bounds.Basic

/-!
# Searching for a keyword from a place on

A search for a keyword begins anew at each place from which it goes on: it does not know the nesting
of this place or the character before it.  From a place at the outer level at which no word goes on,
this is of no account; the search finds the first place there at which the keyword stands in the
whole text, as one that never stopped reading would.
-/

namespace Testbench.Vhdl.Offset

open Nesting

variable {word t a : Text} {i j : Nat}

/-- A word stands in a text at an offset: it is written there in any case, a reader of the text is
at the outer level, and neither the character before nor the one behind continues the word. -/
def StandsAt (word t : Text) (i : Nat) : Prop :=
  ∃ before found rest : Text, t = before ++ (found ++ rest) ∧ before.byteCount = i ∧
    found.sameWord word ∧ (outer.after before).isOuter ∧
    ¬before.getLast?.any isWordChar ∧ ¬rest.head?.any isWordChar

/-- A text that lacks a word is one in which it stands nowhere. -/
theorem lacksWord_iff_forall :
  LacksWord word t ↔ ∀ i, ¬StandsAt word t i
  := by
  constructor
  · rintro lacks i ⟨before, found, rest, rfl, -, same, ends, first, last⟩
    exact (lacks before found rest rfl same (isOuter_iff.1 ends)).elim first last
  · intro absent before found rest split same ends
    by_contra free
    rw [not_or] at free
    exact absent _ ⟨before, found, rest, split, rfl, same, isOuter_iff.2 ends, free⟩

/-- A text is split at the first place at which the word stands. -/
theorem isLeast_of_splitWord? (hw : IsWord word) {before rest : Text}
    (h : splitWord? word t = some (before, rest)) :
  IsLeast {i | StandsAt word t i} before.byteCount
  := by
  obtain ⟨found, rfl, same, misses, ends, first, last⟩ := (splitWord?_eq_some_iff hw).1 h
  refine ⟨⟨before, found, rest, rfl, rfl, same, isOuter_iff.2 ends, first, last⟩, ?_⟩
  rintro i ⟨a, found', rest', split, rfl, same', ends', first', last'⟩
  by_contra less
  rw [Nat.not_le] at less
  -- the word would stand in the part that misses it
  obtain ⟨b, rfl, eq⟩ := Text.exists_of_append_eq split.symm (Nat.le_of_lt less)
  have ne : b ≠ [] := by
    rintro rfl
    simp at less
  apply misses_iff.1 misses a b rfl ne ends'
  rw [isWordAt_iff, behind_eq, Option.or_none]
  exact ⟨first', found', rest', eq.symm, same', last'⟩

section

variable (ends : (outer.after a).isOuter) (free : ¬a.getLast?.any isWordChar)
include ends free

/-- Behind a part that ends at the outer level and with no word, a word stands where it stands in
the rest by itself. -/
theorem standsAt_append :
  StandsAt word (a ++ t) (a.byteCount + j) ↔ StandsAt word t j
  := by
  -- the part can be put in front of what stands before the word
  have nesting : ∀ b : Text, outer.after (a ++ b) = outer.after b := by
    intro b
    rw [after_append, isOuter_iff.1 ends]
  have last : ∀ b : Text, (a ++ b).getLast?.any isWordChar = b.getLast?.any isWordChar := by
    intro b
    rw [List.getLast?_append]
    cases b.getLast? with
    | none => simpa using free
    | some c => rfl
  constructor
  · rintro ⟨before, found, rest, split, size, same, outer, first, behind⟩
    obtain ⟨b, rfl, rfl⟩ := Text.exists_of_append_eq split (by omega)
    rw [Text.byteCount_append] at size
    rw [nesting] at outer
    rw [last] at first
    exact ⟨b, found, rest, rfl, by omega, same, outer, first, behind⟩
  · rintro ⟨b, found, rest, rfl, rfl, same, outer, first, behind⟩
    rw [← nesting] at outer
    rw [← last] at first
    exact ⟨a ++ b, found, rest, by rw [List.append_assoc], Text.byteCount_append a b, same, outer,
      first, behind⟩

/-- The first place of a word behind such a part is the first one in the rest. -/
theorem isLeast_append :
  IsLeast {i | a.byteCount ≤ i ∧ StandsAt word (a ++ t) i} (a.byteCount + j) ↔
    IsLeast {j | StandsAt word t j} j
  := by
  constructor
  · rintro ⟨⟨-, here⟩, least⟩
    use (standsAt_append ends free).1 here
    intro k there
    have := least ⟨Nat.le_add_right a.byteCount k, (standsAt_append ends free).2 there⟩
    omega
  · rintro ⟨here, least⟩
    use ⟨Nat.le_add_right a.byteCount j, (standsAt_append ends free).2 here⟩
    rintro i ⟨bound, there⟩
    obtain ⟨k, rfl⟩ := Nat.exists_eq_add_of_le bound
    have := least ((standsAt_append ends free).1 there)
    omega

end

/-- From a place at the outer level at which no word goes on, the search for a keyword of letters
finds the first place in the text from there on at which the keyword stands, and nothing if there is
none.  It is the place at which the text from there on is split at the keyword. -/
theorem findKeyword_isLeast (keyword a t : Text) (ne : keyword ≠ [])
    (letters : ∀ c ∈ keyword, isLetter c) (ends : (outer.after a).isOuter)
    (free : ¬a.getLast?.any isWordChar) :
  ∃ place : Option Nat,
    findKeyword keyword (a ++ t) a.byteCount = .ok place ∧
    place = (splitWord? keyword t).map (fun (before, _) => (a ++ before).byteCount) ∧
    (∀ i, place = some i ↔ IsLeast {i | a.byteCount ≤ i ∧ StandsAt keyword (a ++ t) i} i) ∧
    (place = none ↔ ∀ i, a.byteCount ≤ i → ¬StandsAt keyword (a ++ t) i)
  := by
  have hk : IsWord keyword := by
    use ne
    intro c hc
    rw [isWordChar, letters c hc]
    rfl
  have inside := List.suffix_append a t
  cases split : splitWord? keyword t with
  | none =>
    have found := findKeyword_eq_none hk inside split
    rw [Text.offset_append] at found
    have absent := lacksWord_iff_forall.1 ((splitWord?_eq_none_iff_lacksWord hk).1 split)
    have nowhere : ∀ i, a.byteCount ≤ i → ¬StandsAt keyword (a ++ t) i := by
      intro i bound
      obtain ⟨j, rfl⟩ := Nat.exists_eq_add_of_le bound
      rw [standsAt_append ends free]
      exact absent j
    refine ⟨none, found, rfl, ?_, iff_of_true rfl nowhere⟩
    intro i
    apply iff_of_false (by simp)
    rintro ⟨⟨bound, here⟩, -⟩
    exact nowhere i bound here
  | some parts =>
    obtain ⟨before, rest⟩ := parts
    have least := (isLeast_append ends free).2 (isLeast_of_splitWord? hk split)
    rw [← Text.byteCount_append] at least
    obtain ⟨word, eq, found, -⟩ := findKeyword_eq_some hk inside split
    have place : Text.offset (a ++ t) (word ++ rest) = (a ++ before).byteCount := by
      rw [← eq, ← List.append_assoc, Text.offset_append]
    rw [Text.offset_append, place] at found
    refine ⟨_, found, rfl, ?_, ?_⟩
    · intro i
      rw [Option.some.injEq]
      constructor
      · rintro rfl
        exact least
      · exact fun other => least.unique other
    · apply iff_of_false (by simp)
      intro nowhere
      exact nowhere _ least.1.1 least.1.2

/-- Behind a character of two bytes and a parenthesis with the word, the word is found where it is
no part of a longer one. -/
theorem findKeyword_isLeast_to :
  findKeyword "to" "é (to) ato TO (b)" 8 = .ok (some 12) ∧
    IsLeast {i | 8 ≤ i ∧ StandsAt "to" "é (to) ato TO (b)" i} 12
  := by
  have whole : ("é (to) " : Text) ++ "ato TO (b)" = "é (to) ato TO (b)" := by decide
  have start : Text.byteCount "é (to) " = 8 := by decide
  obtain ⟨place, found, eq, least, -⟩ := findKeyword_isLeast "to" "é (to) " "ato TO (b)" (by decide)
    (by decide) (by decide) (by decide)
  obtain rfl : place = some 12 := by
    rw [eq]
    decide
  rw [whole, start] at found
  rw [whole, start] at least
  exact ⟨found, (least 12).1 rfl⟩

end Testbench.Vhdl.Offset
