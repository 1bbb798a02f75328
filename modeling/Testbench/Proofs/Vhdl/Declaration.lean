import Testbench.Layout.Item
import Testbench.Proofs.Vhdl.NameList

/-!
# Declarations that are read again

A clause with a keyword is found in a text if no other clause holds the keyword, and the
declarations in it are found again.  A declaration `name : subtype := default` is taken apart
into what it was made of.
-/

namespace Testbench.Vhdl

open Nesting

variable {n : Nesting} {prev : Option Char} {s t r w word rest keyword inside : Text}
  {default : Option Text}

theorem isWord_generic :
  IsWord "generic"
  := by
  use by decide, by decide

theorem isWord_port :
  IsWord "port"
  := by
  use by decide, by decide

theorem isWord_constant :
  IsWord "constant"
  := by
  use by decide, by decide

theorem isWord_signal :
  IsWord "signal"
  := by
  use by decide, by decide

namespace Declaration

/-! ### Clauses -/

/-- A clause with a keyword around a text. -/
def clauseText (keyword inside : Text) : Text := keyword ++ (" ( " ++ (inside ++ " );"))

/-- A clause leaves the nesting at the outer level. -/
theorem after_clauseText (hk : IsWord keyword) (hi : Balanced inside) :
  outer.after (clauseText keyword inside) = outer
  := by
  have shape : clauseText keyword inside =
      keyword ++ ([' '] ++ ('(' :: ([' '] ++ inside ++ [' ']) ++ [')'] ++ [';'])) := by
    simp [clauseText]
  have blank : Balanced [' '] := Balanced.of_isPlain (by decide)
  rw [shape]
  apply (hk.balanced.append (blank.append (Balanced.append _ _))).after
  · apply ((blank.append hi).append blank).parenthesized
  · apply Balanced.of_isPlain (by decide)

/-- A clause misses each word but its keyword. -/
theorem misses_clauseText (hk : IsWord keyword) (hw : IsWord word) (hi : Balanced inside)
    (other : ¬keyword.sameWord word) :
  Misses (isWordAt word) outer prev (clauseText keyword inside) r
  := by
  have shape : clauseText keyword inside =
      keyword ++ (' ' :: ('(' :: ([' '] ++ inside ++ [' ']) ++ [')'] ++ [';'])) := by
    simp [clauseText]
  have blank : Balanced [' '] := Balanced.of_isPlain (by decide)
  have space : ¬isWordChar ' ' := by decide
  rw [shape, misses_append, misses_isWordAt_cons hw space, misses_append, hk.balanced.after]
  refine ⟨misses_isWordAt_of_isWord hk hw other (by simpa using space), ?_, ?_⟩
  · apply ((blank.append hi).append blank).misses_parenthesis
    apply not_isWordAt_of_head hw
    simp
    decide
  · rw [misses_isWordAt_cons hw (by decide)]
    trivial

/-- A body that misses the keyword has no clause. -/
theorem clause?_eq_none (h : Misses (isWordAt keyword) outer none t []) :
  clause? keyword t = .ok none
  := by
  rw [clause?, splitWord?_eq_none_iff.2 h]

/-- A clause at the start of a body is found. -/
theorem clause?_clauseText (hk : IsWord keyword) (hi : Balanced inside) (rest : Text) :
  clause? keyword (clauseText keyword inside ++ rest) = .ok (some inside.trim)
  := by
  have space : ¬isWordChar ' ' := by decide
  have blank : ∀ c ∈ [' '], isBlank c := by decide
  have spaces : Balanced [' '] := Balanced.of_isPlain (by decide)
  have shape : clauseText keyword inside ++ rest =
      keyword ++ ' ' :: '(' :: (([' '] ++ inside ++ [' ']) ++ ')' :: ';' :: rest) := by
    simp [clauseText]
  have found : splitWord? keyword (clauseText keyword inside ++ rest) =
      some ([], ' ' :: '(' :: (([' '] ++ inside ++ [' ']) ++ ')' :: ';' :: rest)) := by
    apply (splitWord?_eq_some_iff hk).2
    use keyword, shape, Text.sameWord_self _, trivial, rfl, by simp
    simpa using space
  have start : Text.trimStart (' ' :: '(' :: (([' '] ++ inside ++ [' ']) ++ ')' :: ';' :: rest)) =
      '(' :: (([' '] ++ inside ++ [' ']) ++ ')' :: ';' :: rest) := by
    apply (Text.trimStart_append (a := [' ']) blank).trans (Text.trimStart_cons (by decide))
  have closing : splitClosing? (([' '] ++ inside ++ [' ']) ++ ')' :: ';' :: rest) =
      some ([' '] ++ inside ++ [' '], ';' :: rest) := by
    apply splitClosing?_eq_some_iff.2 ⟨rfl, (spaces.append hi).append spaces⟩
  rw [clause?, found]
  simp only
  rw [start]
  simp only
  rw [closing]
  simp only
  rw [Text.trim_append_blanks blank blank]

/-- The search for a clause goes on behind a part of the body that lacks the keyword. -/
theorem clause?_append (hk : IsWord keyword) (lacks : LacksWord keyword s)
    (ends : outer.after s = outer) (apart : Apart s t) :
  clause? keyword (s ++ t) = clause? keyword t
  := by
  rw [clause?, clause?, splitWord?_append hk lacks ends apart]
  cases splitWord? keyword t <;> rfl

/-- The search for a clause goes on behind a clause with another keyword. -/
theorem clause?_clauseText_append (hk : IsWord keyword) (hw : IsWord word) (hi : Balanced inside)
    (other : ¬word.sameWord keyword) (t : Text) :
  clause? keyword (clauseText word inside ++ ' ' :: t) = clause? keyword (' ' :: t)
  := by
  apply clause?_append hk _ (after_clauseText hw hi) (apart_cons (by decide))
  rw [lacksWord_iff hk]
  apply misses_clauseText hw hk hi other

/-- A space before a body does not matter to its clauses. -/
theorem clause?_space (hk : IsWord keyword) (t : Text) :
  clause? keyword (' ' :: t) = clause? keyword t
  := by
  have space : ¬isWordChar ' ' := by decide
  apply clause?_append hk (s := [' ']) _ rfl (apart_of_last (by simpa using space))
  rw [lacksWord_iff hk, misses_isWordAt_cons hk space]
  trivial

/-! ### Lists of declarations -/

/-- A part of a list of declarations is balanced and holds no semicolon at the outer level. -/
structure IsPart (t : Text) : Prop where
  balanced : Balanced t
  lacks : outer.Lacks ';' t

instance : DecidablePred IsPart := fun t =>
  decidable_of_iff (Balanced t ∧ outer.Lacks ';' t) ⟨fun h => ⟨h.1, h.2⟩, fun h => ⟨h.1, h.2⟩⟩

/-- A member of a list of declarations is a part of it that is trimmed and not empty. -/
structure IsMember (t : Text) : Prop extends IsPart t where
  ne_nil : t ≠ []
  trim : t.trim = t

/-- The declarations behind semicolons are the trims of the texts there that are not blank. -/
theorem list_join {ts : List Text} (h : ∀ t ∈ ts, IsPart t) :
  list (Text.join "; " ts) = (ts.map Text.trim).filter (· ≠ [])
  := by
  by_cases empty : ts = []
  · rw [empty]
    rfl
  · have ends : ∀ t ∈ ts, outer.after t = outer ∧ outer.Lacks ';' t :=
      fun t ht => ⟨(h t ht).balanced.after, (h t ht).lacks⟩
    rw [list]
    exact congrArg (List.filter (· ≠ [])) (split_join (by decide) (by decide) ends empty)

/-- Declarations behind semicolons are found again. -/
theorem list_join_of_isMember {ts : List Text} (h : ∀ t ∈ ts, IsMember t) :
  list (Text.join "; " ts) = ts
  := by
  have same : ts.map Text.trim = ts := by
    rw [List.map_congr_left fun t ht => (h t ht).trim, List.map_id']
  rw [list_join fun t ht => (h t ht).toIsPart, same, List.filter_eq_self]
  intro t ht
  simpa using (h t ht).ne_nil

/-- Declarations behind semicolons make up a balanced text that is trimmed. -/
theorem balanced_join {ts : List Text} (h : ∀ t ∈ ts, IsMember t) :
  Balanced (Text.join "; " ts) ∧ (Text.join "; " ts).trim = Text.join "; " ts
  := by
  have nonempty : ∀ {t : Text} {ts : List Text}, IsMember t → Text.join "; " (t :: ts) ≠ [] := by
    intro t ts ht
    cases ts with
    | nil => simpa [Text.join] using ht.ne_nil
    | cons t' ts => simp [Text.join]
  induction ts with
  | nil => apply And.intro Balanced.nil rfl
  | cons t ts ih =>
    obtain ⟨⟨balanced, -⟩, ne, trim⟩ := h t List.mem_cons_self
    cases ts with
    | nil =>
      rw [Text.join, List.intercalate_singleton]
      use balanced, trim
    | cons t' ts =>
      have members : ∀ t ∈ t' :: ts, IsMember t := fun t ht => h t (List.mem_cons_of_mem _ ht)
      obtain ⟨rest, restTrim⟩ := ih members
      rw [Text.join, List.intercalate_cons_cons, List.append_assoc]
      constructor
      · apply balanced.append ((Balanced.of_isPlain (by decide)).append rest)
      · apply Text.trim_append_append trim ne restTrim
        apply nonempty (members t' List.mem_cons_self)

/-! ### Defaults -/

/-- A declaration has no default, or it ends with an assignment of a text that is not blank. -/
inductive IsDefaultPart : Text → Option Text → Prop
  | absent : IsDefaultPart [] none
  | assigned {v : Text} : v.trim ≠ [] → IsDefaultPart (':' :: '=' :: v) (some v.trim)

/-- A text is taken apart before the default with which it ends. -/
theorem splitDefault_of_isDefaultPart {value : Text} (h : IsDefaultPart value default)
    (misses : Misses isAssignmentAt outer none s []) (ends : outer.after s = outer) :
  splitDefault (s ++ value) = .ok (s.trim, default)
  := by
  rw [splitDefault]
  cases h with
  | absent =>
    rw [List.append_nil, splitAssignment?_eq_none_iff.2 misses]
  | @assigned v ne =>
    have found : splitAssignment? (s ++ ':' :: '=' :: v) = some (s, v) :=
      splitAssignment?_eq_some_iff.2
        ⟨rfl, (misses_isAssignmentAt_congr (by simp) (by simp)).1 misses, ends⟩
    rw [found]
    exact if_neg ne

/-- What is read as a default is one, and stands behind the subtype. -/
theorem exists_of_splitDefault (h : splitDefault t = .ok (s, default)) :
  ∃ subtype value, t = subtype ++ value ∧ subtype.trim = s ∧ IsDefaultPart value default
  := by
  rw [splitDefault] at h
  split at h
  · obtain ⟨rfl, rfl⟩ : t.trim = s ∧ none = default := by simpa using h
    use t, [], by simp, rfl, IsDefaultPart.absent
  · next subtype v found =>
    obtain ⟨rfl, -, -⟩ := splitAssignment?_eq_some_iff.1 found
    split at h
    · simp at h
    · next ne =>
      obtain ⟨rfl, rfl⟩ : subtype.trim = s ∧ some v.trim = default := by simpa using h
      use subtype, ':' :: '=' :: v, rfl, rfl, IsDefaultPart.assigned ne

/-- The default of an item that is kept is read again. -/
theorem exists_isDefaultPart (item : Layout.Item) (hv : ∀ v ∈ item.value, v.trim = v ∧ v ≠ []) :
  ∃ b part, item.assignment = b ++ part ∧ (∀ c ∈ b, isBlank c) ∧ IsDefaultPart part item.value
  := by
  rw [Layout.Item.assignment]
  cases value : item.value with
  | none => use [], [], rfl, by simp, IsDefaultPart.absent
  | some v =>
    obtain ⟨trim, ne⟩ := hv v value
    have same : Text.trim (' ' :: v) = v :=
      (Text.trim_append_left (a := [' ']) (by decide)).trans trim
    have part : IsDefaultPart (':' :: '=' :: ' ' :: v) (some (Text.trim (' ' :: v))) :=
      IsDefaultPart.assigned (by rwa [same])
    rw [same] at part
    use [' '], ':' :: '=' :: ' ' :: v, rfl, by decide, part

/-- A subtype without an assignment and a default are found again. -/
theorem splitDefault_eq (trim : s.trim = s) (ends : outer.after s = outer)
    (absent : splitAssignment? s = none) (item : Layout.Item)
    (hv : ∀ v ∈ item.value, v.trim = v ∧ v ≠ []) :
  splitDefault (' ' :: (s ++ item.assignment)) = .ok (s, item.value)
  := by
  obtain ⟨b, part, eq, hb, value⟩ := exists_isDefaultPart item hv
  have blank : ∀ c ∈ [' '], isBlank c := by decide
  have shape : ' ' :: (s ++ item.assignment) = ([' '] ++ s ++ b) ++ part := by simp [eq]
  have misses : Misses isAssignmentAt outer none ([' '] ++ s ++ b) [] := by
    rw [splitAssignment?_eq_none_iff] at absent
    rw [misses_append, misses_append, after_of_isBlank blank]
    use ⟨misses_isAssignmentAt_of_isBlank blank, ?_⟩, misses_isAssignmentAt_of_isBlank hb
    apply (misses_isAssignmentAt_congr (by simp) _).1 absent
    rw [List.append_nil]
    exact fun found => absurd (hb '=' (List.mem_of_mem_head? found)) (by decide)
  have level : outer.after ([' '] ++ s ++ b) = outer := by
    rw [after_append, after_append, after_of_isBlank blank, after_of_isBlank hb, ends]
  rw [shape, splitDefault_of_isDefaultPart value misses level,
    Text.trim_blanks_append trim blank hb]

end Declaration

end Testbench.Vhdl
