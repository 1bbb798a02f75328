import Mathlib.Data.List.Induction
import Testbench.Proofs.Vhdl.Entity

/-!
# The first fault of a name

A text that is no identifier has a first fault.  It is told by the language alone: by the shortest
part from the start that no identifier begins with, or, if there is none, by the text being empty or
unfinished, `Identifier.Blames`.  The search for a fault finds the first one, because all that it
has to know of what it has passed is whether an underline was the last character, and everything
that it passes can be extended to an identifier.
-/

namespace Testbench.Vhdl.Identifier

variable {c : Char} {f : Fault} {p q s t : Text}

/-- A text begins an identifier when it can be extended to one. -/
def Begins (p : Text) : Prop := ∃ q, IsBasic (p ++ q)

/-- What a character is blamed for with which the start `p` of an identifier does not go on. -/
def faultBehind (p : Text) (c : Char) : Fault :=
  if p = [] then .firstChar c
  else if c = '_' ∧ p.getLast? = some '_' then .doubleUnderline
  else .badChar c

/-- The first fault of a text that is no identifier: it is empty, or its shortest part from the
start that begins no identifier ends with a character that is blamed, or there is no such part. -/
inductive Blames : Text → Fault → Prop
  | empty : Blames [] .empty
  | char {p : Text} {c : Char} {r : Text} : (∀ s, s <+: p → Begins s) → ¬Begins (p ++ [c]) →
      Blames (p ++ c :: r) (faultBehind p c)
  | unfinished {t : Text} : t ≠ [] → (∀ s, s <+: t → Begins s) → ¬IsBasic t →
      Blames t .trailingUnderline

/-- The start of a text that begins an identifier begins one. -/
theorem Begins.of_prefix (hp : Begins p) (h : s <+: p) :
  Begins s
  := by
  obtain ⟨r, rfl⟩ := h
  obtain ⟨q, basic⟩ := hp
  use r ++ q
  rw [← List.append_assoc]
  exact basic

/-- Behind the first letter a character is passed unless it belongs to no word or is an underline
behind another one, and then it is blamed. -/
theorem tailFault?_cons (ne : p ≠ []) :
  tailFault? (p.getLast? == some '_') (c :: q) =
    if isWordChar c ∧ ¬(c = '_' ∧ p.getLast? = some '_') then tailFault? (c == '_') q
    else some (faultBehind p c)
  := by
  rw [tailFault?, faultBehind, if_neg ne]
  by_cases word : isWordChar c
  · by_cases double : c = '_' ∧ p.getLast? = some '_'
    · obtain ⟨rfl, last⟩ := double
      simp [word, last]
    · simp [word, double]
  · have other : c ≠ '_' := by
      rintro rfl
      exact absurd (by decide) word
    simp [word, other]

/-! ### Passing the start of a text -/

/-- The start of a text is passed when the search for a fault goes on behind it, with nothing in
mind but whether it ends with an underline. -/
def IsPassed (p : Text) : Prop :=
  ∀ q, fault? (p ++ q) = tailFault? (p.getLast? == some '_') q

/-- A letter at the start is passed. -/
theorem isPassed_letter (hc : isLetter c) :
  IsPassed [c]
  := by
  have other : c ≠ '_' := by
    rintro rfl
    exact absurd hc (by decide)
  intro q
  simp [fault?, hc, beq_false_of_ne other]

/-- What is passed can be extended by a letter. -/
theorem IsPassed.begins (hp : IsPassed p) :
  Begins p
  := by
  use ['a']
  rw [← fault?_eq_none_iff, hp]
  cases p.getLast? == some '_' <;> decide

section

variable (hp : IsPassed p) (ne : p ≠ [])
include hp ne

/-- The next character is passed as well unless it is blamed. -/
theorem IsPassed.concat (good : isWordChar c ∧ ¬(c = '_' ∧ p.getLast? = some '_')) :
  IsPassed (p ++ [c])
  := by
  intro q
  rw [List.append_assoc, List.singleton_append, hp, tailFault?_cons ne, if_pos good,
    List.getLast?_concat]
  rfl

/-- With a character that is blamed no identifier begins. -/
theorem IsPassed.not_begins (bad : ¬(isWordChar c ∧ ¬(c = '_' ∧ p.getLast? = some '_'))) :
  ¬Begins (p ++ [c])
  := by
  rintro ⟨q, basic⟩
  rw [← fault?_eq_none_iff, List.append_assoc, List.singleton_append, hp, tailFault?_cons ne,
    if_neg bad] at basic
  contradiction

/-- The fault that is found behind what is passed is the first one. -/
theorem IsPassed.blames (h : tailFault? (p.getLast? == some '_') t = some f) :
  Blames (p ++ t) f
  := by
  induction t generalizing p with
  | nil =>
    have found := hp []
    rw [h, List.append_nil] at found
    have other : ¬IsBasic p := by
      rw [← fault?_eq_none_iff, found]
      simp
    rw [tailFault?] at h
    split at h
    · obtain rfl := Option.some.inj h
      rw [List.append_nil]
      exact .unfinished ne (fun s hs => hp.begins.of_prefix hs) other
    · contradiction
  | cons c t ih =>
    rw [tailFault?_cons ne] at h
    split at h
    · next good =>
      rw [← List.singleton_append, ← List.append_assoc]
      apply ih (hp.concat ne good) (by simp)
      rw [List.getLast?_concat]
      exact h
    · next bad =>
      obtain rfl := Option.some.inj h
      exact .char (fun s hs => hp.begins.of_prefix hs) (hp.not_begins ne bad)

end

/-! ### The first fault -/

/-- No identifier begins with another character than a letter. -/
theorem not_begins_of_not_isLetter (hc : ¬isLetter c) :
  ¬Begins [c]
  := by
  rintro ⟨q, basic⟩
  cases basic with
  | intro letter => exact hc letter

/-- The fault that is found is the first one. -/
theorem blames_of_fault?_eq_some (h : fault? t = some f) :
  Blames t f
  := by
  cases t with
  | nil =>
    obtain rfl := Option.some.inj h
    exact .empty
  | cons c r =>
    rw [fault?] at h
    split at h
    · next letter =>
      have passed := isPassed_letter letter
      apply passed.blames (by simp)
      rw [← passed r]
      simpa [fault?, letter] using h
    · next other =>
      obtain rfl := Option.some.inj h
      have empty : ∀ s : Text, s <+: [] → Begins s := by
        intro s hs
        rw [List.prefix_nil.1 hs]
        exact ⟨['a'], .intro (by decide) .nil⟩
      exact Blames.char (p := []) empty (not_begins_of_not_isLetter other)

/-- What begins an identifier is passed. -/
theorem Begins.isPassed (hp : Begins p) (ne : p ≠ []) :
  IsPassed p
  := by
  induction p using List.reverseRecOn with
  | nil => contradiction
  | append_singleton p c ih =>
    have shorter := hp.of_prefix (List.prefix_append p [c])
    by_cases first : p = []
    · subst first
      apply isPassed_letter
      by_contra other
      exact not_begins_of_not_isLetter other hp
    · have passed := ih shorter first
      apply passed.concat first
      by_contra bad
      exact passed.not_begins first bad hp

/-- The first fault of a text is found. -/
theorem Blames.fault?_eq (h : Blames t f) :
  fault? t = some f
  := by
  cases h with
  | empty => rfl
  | @char p c r shorter stops =>
    by_cases first : p = []
    · subst first
      have other : ¬isLetter c := fun letter => stops (isPassed_letter letter).begins
      rw [List.nil_append, fault?, if_neg other]
      rfl
    · have passed := (shorter p List.prefix_rfl).isPassed first
      have bad : ¬(isWordChar c ∧ ¬(c = '_' ∧ p.getLast? = some '_')) :=
        fun good => stops (passed.concat first good).begins
      rw [passed, tailFault?_cons first, if_neg bad]
  | unfinished ne shorter other =>
    have found := ((shorter t List.prefix_rfl).isPassed ne) []
    rw [List.append_nil, tailFault?] at found
    split at found
    · exact found
    · exact absurd (fault?_eq_none_iff.1 found) other

/-- The fault that is found is the first one. -/
theorem fault?_eq_some_iff :
  fault? t = some f ↔ Blames t f
  := ⟨blames_of_fault?_eq_some, Blames.fault?_eq⟩

/-- A text is read as an identifier, which keeps it, exactly if it follows the grammar; otherwise
its first fault is told. -/
theorem ofText_blames_first (t : Text) :
  ((∃ i, ofText t = .ok i) ↔ IsBasic t) ∧
  (∀ i, ofText t = .ok i → i.text = t) ∧
  ∀ f, ofText t = .error f ↔ Blames t f
  := by
  refine ⟨?_, ?_, ?_⟩
  · constructor
    · rintro ⟨i, read⟩
      rw [← ofText_eq_ok_iff.1 read]
      exact i.isBasic
    · intro basic
      use ⟨t, fault?_eq_none_iff.2 basic⟩
      exact ofText_eq_ok_iff.2 rfl
  · intro i
    apply ofText_eq_ok_iff.1
  · intro f
    rw [← fault?_eq_some_iff, ofText]
    split
    · next none => simp [none]
    · next g found => simp [found]

/-- A character of another kind is blamed before an underline at the end. -/
example : fault? "clk_é_" = some (.badChar 'é') := by decide

end Testbench.Vhdl.Identifier
