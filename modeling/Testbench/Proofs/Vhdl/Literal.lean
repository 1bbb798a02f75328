import Testbench.Proofs.Layout.Component

/-!
# Character literals as defaults

A reader of declarations knows parentheses and strings, but no character literals: the
character between two apostrophes counts like any other one.  A clause of generics whose
defaults are character literals is therefore read as it is meant exactly if none of these
characters separates declarations or opens or closes a parenthesis or a string.
-/

namespace Testbench.Vhdl

open Nesting Layout

/-- A character is printable when it is the space or a visible ASCII character. -/
def IsPrintable (c : Char) : Prop := ' ' ≤ c ∧ c ≤ '~'

instance : DecidablePred IsPrintable := fun _ => inferInstanceAs (Decidable (_ ∧ _))

/-- A character divides a list of declarations when it stands between two of them, or
decides whether another character does so. -/
def Divides (c : Char) : Prop := c = ';' ∨ ¬IsPlain c

instance : DecidablePred Divides := fun _ => inferInstanceAs (Decidable (_ ∨ _))

/-- A separator that is printable is a space. -/
theorem IsPrintable.eq_space {c : Char} (h : IsPrintable c) (separator : isSeparator c) :
  c = ' '
  := by
  simp only [isSeparator, Bool.or_eq_true, beq_iff_eq] at separator
  rcases separator with (((((rfl | rfl) | rfl) | rfl) | rfl) | rfl) | rfl
  · rfl
  all_goals exact absurd h (by decide)

/-! ### Literals -/

/-- The literal of a character. -/
def characterLiteral (c : Char) : Text := ['\'', c, '\'']

section

variable {c : Char}

/-- The literal of a printable character is solid. -/
theorem IsPrintable.solid (h : IsPrintable c) :
  Solid (characterLiteral c)
  := by
  have mark : ¬isSeparator '\'' := by decide
  refine ⟨⟨?_, ?_⟩, by simp [characterLiteral], ?_⟩
  · simp [characterLiteral, Joins, mark]
  · intro d hd separator
    simp only [characterLiteral, List.mem_cons, List.not_mem_nil, or_false] at hd
    rcases hd with rfl | rfl | rfl
    · contradiction
    · apply h.eq_space separator
    · contradiction
  · rw [Text.trim_eq_self_iff]
    simp only [characterLiteral, List.head?_cons, Option.mem_some_iff, forall_eq',
      List.getLast?_cons_cons, List.getLast?_singleton]
    decide

/-- The literal of a printable character can be kept exactly if the character does not divide
declarations. -/
theorem IsPrintable.verbatim_iff (h : IsPrintable c) :
  Verbatim (characterLiteral c) ↔ ¬Divides c
  := by
  have mark : outer.next '\'' = outer := rfl
  constructor
  · rintro kept (rfl | notPlain)
    · exact absurd kept.lacks (by decide)
    · have balanced := kept.balanced
      simp only [IsPlain, not_and_or, not_not] at notPlain
      rcases notPlain with rfl | rfl | rfl
      all_goals exact absurd balanced (by decide)
  · intro undivided
    obtain ⟨other, plain⟩ := not_or.1 undivided
    rw [not_not] at plain
    apply h.solid.verbatim
    · apply Balanced.of_isPlain
      intro d hd
      simp only [characterLiteral, List.mem_cons, List.not_mem_nil, or_false] at hd
      rcases hd with rfl | rfl | rfl
      · decide
      · apply plain
      · decide
    · apply lacks_of_not_mem
      simp only [characterLiteral, List.mem_cons, List.not_mem_nil, or_false]
      rintro (eq | rfl | eq)
      · exact absurd eq (by decide)
      · exact other rfl
      · exact absurd eq (by decide)

end

/-! ### Generics with characters -/

/-- A generic whose type is an identifier and whose default is the literal of a printable
character. -/
structure CharacterGeneric where
  name : Identifier
  type : Identifier
  value : Char
  printable : IsPrintable value

namespace CharacterGeneric

variable {d : CharacterGeneric} {ds : List CharacterGeneric}

/-- What is meant by the declaration of a generic with a character. -/
def generic (d : CharacterGeneric) : Generic :=
  ⟨d.name, d.type.text, some (characterLiteral d.value)⟩

/-- The declaration of a generic with a character. -/
def text (d : CharacterGeneric) : Text :=
  d.name.text ++ " : " ++ d.type.text ++ " := " ++ characterLiteral d.value

/-- The clause that declares generics with characters. -/
def clause (ds : List CharacterGeneric) : Text :=
  Declaration.clauseText "generic" (Text.join "; " (ds.map text))

theorem text_eq_line (d : CharacterGeneric) :
  d.text = (Item.ofGeneric d.generic).line [' ']
  := by
  simp [text, generic, Item.line, Item.indication, Item.ofGeneric, Item.modePart, Item.assignment]

theorem writes_text (d : CharacterGeneric) :
  (Item.ofGeneric d.generic).Writes d.text
  := ⟨[' '], by decide, d.text_eq_line⟩

/-- A generic with a character that does not divide declarations is like one that is read. -/
theorem isRead_generic (h : ¬Divides d.value) :
  d.generic.IsRead
  := by
  refine ⟨d.type.isWord.verbatim, ?_, ?_⟩
  · rw [splitAssignment?_eq_none_iff]
    apply misses_isAssignmentAt_of_not_mem
    apply d.type.isWord.not_mem (by decide)
  · intro v hv
    obtain rfl : characterLiteral d.value = v := by simpa [generic] using hv
    apply d.printable.verbatim_iff.2 h

/-! ### Tidy clauses -/

theorem solid_text (d : CharacterGeneric) :
  Solid d.text
  := by
  have shape : d.text = d.name.text ++ ' ' :: (":".toList ++ ' ' ::
      (d.type.text ++ ' ' :: (":=".toList ++ ' ' :: characterLiteral d.value))) := by
    simp [text]
  have value := Solid.spaced (s := ":=".toList) (by decide) d.printable.solid
  rw [shape]
  apply d.name.isWord.solid.spaced (Solid.spaced (by decide) (d.type.isWord.solid.spaced value))

theorem solid_join (ne : ds ≠ []) :
  Solid (Text.join "; " (ds.map text))
  := by
  induction ds with
  | nil => contradiction
  | cons d ds ih =>
    cases ds with
    | nil => simpa [Text.join] using d.solid_text
    | cons d' ds =>
      have ends : Solid (d.text ++ [';']) := by
        apply d.solid_text.append (by decide)
        intro a ha b hb
        obtain rfl : ';' = b := by simpa using hb
        have last := d.solid_text.last a ha
        simp [Joins, isSeparator]
      have := ends.spaced (ih (by simp))
      simpa [Text.join, List.intercalate_cons_cons] using this

/-- A clause that declares generics is tidy. -/
theorem tidy_clause (ne : ds ≠ []) :
  Tidy (clause ds)
  := by
  have shape : clause ds = "generic".toList ++ ' ' :: ("(".toList ++ ' ' ::
      (Text.join "; " (ds.map text) ++ ' ' :: ");".toList)) := by
    simp [clause, Declaration.clauseText]
  rw [shape]
  apply Solid.tidy
  apply Solid.spaced (by decide) (Solid.spaced (by decide) ((solid_join ne).spaced (by decide)))

/-! ### Reading clauses -/

/-- The word for the class of the objects is no name. -/
theorem not_names_of_sameWord {objectClass : Text} {i : Identifier} {names : List Identifier}
    (same : i.text.sameWord objectClass) :
  Declaration.names objectClass (i.text ++ [' ']) ≠ .ok names
  := by
  have word : nextWord? (i.text ++ [' ']) = some (i.text, [' ']) := by
    apply nextWord?_eq_some_iff.2
    use i.isWord, by decide, []
    simp
  have stripped : stripWord? objectClass (i.text ++ [' ']) = some [] := by
    simp only [stripWord?, word]
    exact if_pos same
  rw [Declaration.names, stripped]
  rintro ⟨⟩

/-- The declaration of a generic whose name is the word for generics is not read. -/
theorem not_ofDeclaration?_text (same : d.name.text.sameWord "constant") (gs : List Generic) :
  Generic.ofDeclaration? d.text ≠ .ok gs
  := by
  intro read
  have split : Declaration.splitNames d.text = .ok (d.name.text ++ [' '],
      ' ' :: (d.type.text ++ " := " ++ characterLiteral d.value)) := by
    have shape : d.text = (d.name.text ++ [' ']) ++ ':' :: ' ' ::
        (d.type.text ++ " := " ++ characterLiteral d.value) := by
      simp [text]
    rw [shape]
    apply (Declaration.isName_append (by decide)).splitNames (by simp)
  rw [Generic.ofDeclaration?, mapError_eq_ok, Generic.ofDeclaration, split] at read
  obtain ⟨parts, parted, read⟩ := bind_eq_ok.1 read
  obtain rfl := Except.ok.inj parted
  obtain ⟨typed, -, read⟩ := bind_eq_ok.1 read
  obtain ⟨names, named, -⟩ := bind_eq_ok.1 read
  exact not_names_of_sameWord same named

/-- A clause in which no character divides declarations is found. -/
theorem clause?_clause (h : ∀ d ∈ ds, ¬Divides d.value) :
  Declaration.clause? "generic" (clause ds) = .ok (some (Text.join "; " (ds.map text))) ∧
    ∀ t ∈ ds.map text, Declaration.IsMember t
  := by
  have members : ∀ t ∈ ds.map text, Declaration.IsMember t := by
    intro t ht
    obtain ⟨d, hd, rfl⟩ := List.mem_map.1 ht
    rw [text_eq_line]
    apply (Item.isKept_ofGeneric (isRead_generic (h d hd))).isMember (by decide)
  obtain ⟨balanced, trim⟩ := Declaration.balanced_join members
  refine ⟨?_, members⟩
  have found := Declaration.clause?_clauseText isWord_generic balanced []
  rwa [List.append_nil, trim] at found

/-- A clause is read as it is meant if no character divides declarations and no name is the
word for generics. -/
theorem ofBody_clause (h : ∀ d ∈ ds, ¬Divides d.value)
    (other : ∀ d ∈ ds, ¬d.name.text.sameWord "constant") :
  Generic.ofBody (clause ds) = .ok (ds.map generic)
  := by
  obtain ⟨found, -⟩ := clause?_clause h
  by_cases empty : ds = []
  · subst empty
    rfl
  · have ne : ds.map text ≠ [] := by simpa using empty
    have writes : List.Forall₂ Item.Writes ((ds.map generic).map Item.ofGeneric) (ds.map text) := by
      rw [List.map_map, List.forall₂_map_left_iff, List.forall₂_map_right_iff, List.forall₂_same]
      intro d _
      apply d.writes_text
    apply Generic.ofBody_eq_ok _ writes
    · intro g hg
      obtain ⟨d, hd, rfl⟩ := List.mem_map.1 hg
      apply isRead_generic (h d hd)
    · intro g hg
      obtain ⟨d, hd, rfl⟩ := List.mem_map.1 hg
      apply other d hd
    · rw [if_neg ne]
      apply found

/-- What a clause is read as has no default that divides declarations. -/
theorem not_divides_of_ofBody (h : Generic.ofBody (clause ds) = .ok (ds.map generic))
    (hd : d ∈ ds) :
  ¬Divides d.value
  := by
  have read := Generic.isRead_of_ofBody_eq_ok h (tidy_clause (List.ne_nil_of_mem hd))
    (List.mem_map_of_mem hd)
  apply d.printable.verbatim_iff.1
  apply read.default
  rfl

/-- No declaration in a clause that is read has the word for generics as its name. -/
theorem not_sameWord_of_ofBody {gs : List Generic} (plain : ∀ d ∈ ds, ¬Divides d.value)
    (h : Generic.ofBody (clause ds) = .ok gs) (hd : d ∈ ds) :
  ¬d.name.text.sameWord "constant"
  := by
  intro same
  obtain ⟨found, members⟩ := clause?_clause plain
  have listed := Declaration.list_join_of_isMember members
  obtain ⟨inside, clause, h⟩ := bind_eq_ok.1 h
  rw [mapError_eq_ok, found] at clause
  obtain rfl := Except.ok.inj clause
  obtain ⟨lists, read, -⟩ := bind_eq_ok.1 h
  rw [listed] at read
  obtain ⟨gs, read⟩ := exists_eq_ok_of_mapM_eq_ok read (List.mem_map_of_mem hd)
  exact not_ofDeclaration?_text same gs read

/-- A clause of generics with characters is read as it is meant exactly if no character divides
declarations and no name is the word for generics, in any case. -/
theorem ofBody_clause_iff (ds : List CharacterGeneric) :
  Generic.ofBody (clause ds) = .ok (ds.map generic) ↔
    ∀ d ∈ ds, d.value ∉ [';', '(', ')', '"'] ∧ ¬d.name.text.sameWord "constant"
  := by
  have divides : ∀ c : Char, c ∉ [';', '(', ')', '"'] ↔ ¬Divides c := by
    intro c
    simp only [Divides, IsPlain, List.mem_cons, List.not_mem_nil]
    tauto
  simp only [divides]
  constructor
  · intro h d hd
    have plain : ∀ d ∈ ds, ¬Divides d.value := fun d hd => not_divides_of_ofBody h hd
    exact ⟨plain d hd, not_sameWord_of_ofBody plain h hd⟩
  · intro h
    exact ofBody_clause (fun d hd => (h d hd).1) fun d hd => (h d hd).2

/-- The declaration of a semicolon. -/
def semicolon : CharacterGeneric := ⟨⟨"mark", by decide⟩, ⟨"character", by decide⟩, ';', by decide⟩

/-- Not every clause of generics with characters is read as it is meant: a semicolon between
apostrophes ends its declaration. -/
theorem not_ofBody_clause :
  ¬∀ ds : List CharacterGeneric, (ds.map (·.name.key)).Nodup →
    (∀ d ∈ ds, ¬d.name.text.sameWord "constant") →
      Generic.ofBody (clause ds) = .ok (ds.map generic)
  := by
  intro h
  have read := h [semicolon] (by decide) (by decide)
  have refused : Generic.ofBody (clause [semicolon]) ≠ .ok ([semicolon].map generic) := by
    decide +kernel
  exact refused read

end CharacterGeneric

end Testbench.Vhdl
