import Testbench.Proofs.Nesting.Colon
import Testbench.Proofs.Stage
import Testbench.Proofs.Vhdl.Entity
import Testbench.Vhdl.Declaration

/-!
# The grammar of declared names

Before its colon a declaration names its objects: identifiers with commas between them, which
may follow the word for the class of the objects.  `names` reads exactly the texts of this
form, and a declaration of this form is taken apart at the colon behind its names.
-/

namespace Testbench.Vhdl

open Nesting

variable {objectClass q s t before rest : Text} {i : Identifier} {is : List Identifier}

namespace Declaration

/-- A name is written as an identifier between blanks. -/
inductive IsName : Text → Identifier → Prop
  | intro {a b : Text} {i : Identifier} :
      (∀ c ∈ a, isBlank c) → (∀ c ∈ b, isBlank c) → IsName (a ++ (i.text ++ b)) i

/-- A list of names is written with commas between them. -/
inductive IsNameList : Text → List Identifier → Prop
  | one {q : Text} {i : Identifier} : IsName q i → IsNameList q [i]
  | cons {q t : Text} {i : Identifier} {is : List Identifier} :
      IsName q i → IsNameList t is → IsNameList (q ++ ',' :: t) (i :: is)

/-- The word for the class of the objects is written with a gap behind it. -/
inductive IsClassPart (objectClass : Text) : Text → Prop
  | intro {a w g : Text} :
      (∀ c ∈ a, isBlank c) → w.sameWord objectClass → IsGap g →
      IsClassPart objectClass (a ++ (w ++ g))

/-- The names of a declaration follow the word for the class of the objects, or stand alone when
the first of them is not this word. -/
inductive IsNamePart (objectClass : Text) : Text → List Identifier → Prop
  | bare {t : Text} {i : Identifier} {is : List Identifier} :
      ¬i.text.sameWord objectClass → IsNameList t (i :: is) → IsNamePart objectClass t (i :: is)
  | classed {s t : Text} {is : List Identifier} :
      IsClassPart objectClass s → IsNameList t is → IsNamePart objectClass (s ++ t) is

/-! ### Lists of names -/

/-- The trim of a name is its identifier, and any text with this trim is the name. -/
theorem isName_iff :
  IsName q i ↔ q.trim = i.text
  := by
  constructor
  · rintro ⟨ha, hb⟩
    rw [← List.append_assoc, Text.trim_blanks_append i.isWord.trim ha hb]
  · intro h
    obtain ⟨a, b, ha, hb, eq⟩ := q.exists_blanks_trim
    rw [← eq, h, List.append_assoc]
    apply IsName.intro ha hb

/-- An identifier with blanks behind it is a name. -/
theorem isName_append {gap : Text} (hgap : ∀ c ∈ gap, isBlank c) :
  IsName (i.text ++ gap) i
  := IsName.intro (a := []) (by simp) hgap

/-- A name holds word characters and blanks only. -/
theorem IsName.forall_mem (h : IsName q i) :
  ∀ c ∈ q, isWordChar c ∨ isBlank c
  := by
  obtain ⟨ha, hb⟩ := h
  intro c hc
  simp only [List.mem_append] at hc
  rcases hc with hc | hc | hc
  · exact Or.inr (ha c hc)
  · exact Or.inl (i.isWord.forall_mem c hc)
  · exact Or.inr (hb c hc)

/-- Names hold no characters of other kinds. -/
theorem IsName.not_mem {c : Char} (h : IsName q i) (hw : ¬isWordChar c) (hb : ¬isBlank c) :
  c ∉ q
  := by
  intro mem
  rcases h.forall_mem c mem with word | blank
  · exact hw word
  · exact hb blank

/-- Names are balanced. -/
theorem IsName.balanced (h : IsName q i) :
  Balanced q
  := by
  apply Balanced.of_isPlain
  intro c hc
  rcases h.forall_mem c hc with word | blank
  · exact isPlain_of_isWordChar word
  · exact isPlain_of_isBlank blank

/-- A name begins with blanks and its identifier. -/
theorem IsName.exists_append (h : IsName q i) :
  ∃ a b : Text, (∀ c ∈ a, isBlank c) ∧ (∀ c ∈ b, isBlank c) ∧ q = a ++ (i.text ++ b)
  := by
  obtain ⟨ha, hb⟩ := h
  exact ⟨_, _, ha, hb, rfl⟩

/-- The lists of names are the texts that are split into names at their commas. -/
theorem isNameList_iff :
  IsNameList t is ↔ split ',' t = is.map Identifier.text
  := by
  have lacks : ∀ {q : Text} {i : Identifier}, IsName q i → outer.Lacks ',' q :=
    fun h => lacks_of_not_mem (h.not_mem (by decide) (by decide))
  constructor
  · intro h
    induction h with
    | one name => rw [split_of_lacks (lacks name), isName_iff.1 name, List.map_singleton]
    | cons name _ ih =>
      rw [split_append (lacks name) name.balanced.after, isName_iff.1 name, ih, List.map_cons]
  · intro h
    induction is generalizing t with
    | nil =>
      rw [split, List.map_nil, List.map_eq_nil_iff] at h
      exact absurd h pieces_ne_nil
    | cons i is ih =>
      obtain ⟨q, ps, eq⟩ : ∃ q ps, pieces ',' outer t = q :: ps :=
        List.exists_cons_of_ne_nil pieces_ne_nil
      rw [split, eq, List.map_cons, List.map_cons, List.cons.injEq] at h
      obtain ⟨first, others⟩ := h
      obtain ⟨-, ⟨rfl, rfl⟩ | ⟨r, rfl, -, rfl⟩⟩ := eq_of_pieces_eq eq
      · obtain rfl : is = [] := by simpa using others.symm
        apply IsNameList.one (isName_iff.2 first)
      · apply IsNameList.cons (isName_iff.2 first) (ih others)

/-- A list of names holds word characters, blanks and commas only. -/
theorem IsNameList.forall_mem (h : IsNameList t is) :
  ∀ c ∈ t, isWordChar c ∨ isBlank c ∨ c = ','
  := by
  induction h with
  | one name =>
    intro c hc
    rcases name.forall_mem c hc with word | blank
    · exact Or.inl word
    · exact Or.inr (Or.inl blank)
  | cons name _ ih =>
    intro c hc
    rw [List.mem_append, List.mem_cons] at hc
    rcases hc with hc | rfl | hc
    · rcases name.forall_mem c hc with word | blank
      · exact Or.inl word
      · exact Or.inr (Or.inl blank)
    · exact Or.inr (Or.inr rfl)
    · exact ih c hc

/-- A list of names has a first name. -/
theorem IsNameList.exists_cons (h : IsNameList t is) :
  ∃ i is', is = i :: is'
  := by
  cases h with
  | one => exact ⟨_, _, rfl⟩
  | cons => exact ⟨_, _, rfl⟩

/-- The word with which a list of names begins is its first name. -/
theorem IsNameList.nextWord? (h : IsNameList t (i :: is)) :
  ∃ r, Vhdl.nextWord? t = some (i.text, r)
  := by
  cases h with
  | one name =>
    obtain ⟨a, b, ha, hb, rfl⟩ := name.exists_append
    use b
    apply nextWord?_eq_some_iff.2 ⟨i.isWord, not_head_isWordChar hb, a, ha, rfl⟩
  | @cons q t _ _ name _ =>
    obtain ⟨a, b, ha, hb, rfl⟩ := name.exists_append
    use b ++ ',' :: t
    apply nextWord?_eq_some_iff.2 ⟨i.isWord, ?_, a, ha, by simp⟩
    cases b with
    | nil => simpa using (by decide : ¬isWordChar ',')
    | cons c b => simpa using not_isWordChar_of_isBlank (hb c List.mem_cons_self)

/-- Behind its blanks a list of names begins with a word. -/
theorem IsNameList.head_trimStart (h : IsNameList t is) :
  t.trimStart.head?.any isWordChar
  := by
  obtain ⟨i, is, rfl⟩ := h.exists_cons
  obtain ⟨r, found⟩ := h.nextWord?
  obtain ⟨word, -, b, hb, rfl⟩ := nextWord?_eq_some_iff.1 found
  rw [Text.trimStart_append hb, word.trimStart_append]
  apply word.head_append

/-- A list of names is not empty. -/
theorem IsNameList.ne_nil (h : IsNameList t is) :
  t ≠ []
  := by
  rintro rfl
  have starts := h.head_trimStart
  contradiction

/-- The names of a declaration have a first one. -/
theorem IsNamePart.exists_cons (h : IsNamePart objectClass t is) :
  ∃ i is', is = i :: is'
  := by
  cases h with
  | bare _ list => apply list.exists_cons
  | classed _ list => apply list.exists_cons

/-- The names of a declaration are not empty. -/
theorem IsNamePart.ne_nil (h : IsNamePart objectClass t is) :
  t ≠ []
  := by
  cases h with
  | bare _ list => apply list.ne_nil
  | classed _ list => simp [list.ne_nil]

/-! ### Reading names -/

/-- A name is read exactly from its own text. -/
theorem name_eq_ok_iff :
  name q = .ok i ↔ q = i.text
  := by
  rw [name, eq_comm (a := q), ← Identifier.ofText_eq_ok_iff]
  cases Identifier.ofText q <;> simp

/-- The names of a text are read exactly if the text without the word for the class is a list of
them. -/
theorem names_eq_ok_iff_isNameList :
  names objectClass t = .ok is ↔ IsNameList ((stripWord? objectClass t).getD t) is
  := by
  rw [names, mapM_eq_ok, isNameList_iff, ← List.forall₂_eq_eq_eq, List.forall₂_map_right_iff]
  simp only [name_eq_ok_iff]

/-- The names that are read are those of the grammar. -/
theorem names_eq_ok_iff (hc : IsWord objectClass) :
  names objectClass t = .ok is ↔ IsNamePart objectClass t is
  := by
  rw [names_eq_ok_iff_isNameList]
  constructor
  · intro list
    cases stripped : stripWord? objectClass t with
    | none =>
      rw [stripped, Option.getD_none] at list
      obtain ⟨i, is, rfl⟩ := list.exists_cons
      obtain ⟨r, found⟩ := list.nextWord?
      apply IsNamePart.bare _ list
      intro same
      rw [stripWord?_eq_some_iff.2 ⟨_, _, found, same, rfl⟩] at stripped
      contradiction
    | some rest =>
      rw [stripped, Option.getD_some] at list
      obtain ⟨word, r, found, same, rfl⟩ := stripWord?_eq_some_iff.1 stripped
      obtain ⟨-, apart, a, ha, rfl⟩ := nextWord?_eq_some_iff.1 found
      have whole := r.takeWhile_append_trimStart
      have gap : IsGap (r.takeWhile isBlank) := by
        refine ⟨?_, fun c hc => List.mem_takeWhile_imp hc⟩
        -- without a gap the word would run on into the first name
        intro none
        rw [none, List.nil_append] at whole
        rw [whole] at list
        have starts := list.head_trimStart
        rw [whole] at starts
        apply apart starts
      have part := IsNamePart.classed (IsClassPart.intro ha same gap) list
      rwa [List.append_assoc, List.append_assoc, whole] at part
  · intro h
    cases h with
    | bare other list =>
      obtain ⟨r, found⟩ := list.nextWord?
      rwa [stripWord?_eq_none found other]
    | @classed _ t _ part list =>
      obtain @⟨a, w, g, ha, same, gap⟩ := part
      have found : nextWord? (a ++ (w ++ g) ++ t) = some (w, g ++ t) :=
        nextWord?_eq_some_iff.2 ⟨hc.of_sameWord same, gap.head t, a, ha, by simp⟩
      rw [stripWord?_eq_some_iff.2 ⟨w, _, found, same, rfl⟩, Option.getD_some, isNameList_iff,
        split_trimStart (by decide), split_append_left gap.forall_mem (by decide)]
      apply isNameList_iff.1 list

/-- A name with blanks behind it is one declared name, unless it is the word for the class of
the objects. -/
theorem names_eq {gap : Text} (hc : IsWord objectClass) (hgap : ∀ c ∈ gap, isBlank c)
    (other : ¬i.text.sameWord objectClass) :
  names objectClass (i.text ++ gap) = .ok [i]
  := (names_eq_ok_iff hc).2 (IsNamePart.bare other (IsNameList.one (isName_append hgap)))

/-! ### Taking names off -/

/-- The word for the class of the objects holds word characters and blanks only. -/
theorem IsClassPart.forall_mem (hc : IsWord objectClass) (h : IsClassPart objectClass t) :
  ∀ c ∈ t, isWordChar c ∨ isBlank c
  := by
  obtain ⟨ha, same, gap⟩ := h
  intro c mem
  simp only [List.mem_append] at mem
  rcases mem with mem | mem | mem
  · exact Or.inr (ha c mem)
  · exact Or.inl ((hc.of_sameWord same).forall_mem c mem)
  · exact Or.inr (gap.forall_mem c mem)

/-- The names of a declaration hold word characters, blanks and commas only. -/
theorem IsNamePart.forall_mem (hc : IsWord objectClass) (h : IsNamePart objectClass t is) :
  ∀ c ∈ t, isWordChar c ∨ isBlank c ∨ c = ','
  := by
  cases h with
  | bare _ list => apply list.forall_mem
  | classed part list =>
    intro c mem
    rcases List.mem_append.1 mem with mem | mem
    · rcases part.forall_mem hc c mem with word | blank
      · exact Or.inl word
      · exact Or.inr (Or.inl blank)
    · exact list.forall_mem c mem

/-- The names of a declaration hold no characters of other kinds. -/
theorem IsNamePart.not_mem {c : Char} (hc : IsWord objectClass) (h : IsNamePart objectClass t is)
    (hw : ¬isWordChar c) (hb : ¬isBlank c) (other : c ≠ ',') :
  c ∉ t
  := by
  intro mem
  rcases h.forall_mem hc c mem with word | blank | comma
  · exact hw word
  · exact hb blank
  · exact other comma

/-- The names of a declaration are balanced. -/
theorem IsNamePart.balanced (hc : IsWord objectClass) (h : IsNamePart objectClass t is) :
  Balanced t
  := by
  apply Balanced.of_isPlain
  intro c mem
  rcases h.forall_mem hc c mem with word | blank | rfl
  · exact isPlain_of_isWordChar word
  · exact isPlain_of_isBlank blank
  · decide

/-- A declaration is taken apart at the colon behind a text without colons. -/
theorem splitNames_eq_ok_iff (colon : ':' ∉ before) (ends : outer.after before = outer) :
  splitNames t = .ok (before, rest) ↔ t = before ++ ':' :: rest ∧ rest.head? ≠ some '='
  := by
  have search : splitNames t = .ok (before, rest) ↔ splitColon? t = some (before, rest) := by
    rw [splitNames]
    cases splitColon? t <;> simp
  rw [search, splitColon?_eq_some_iff]
  constructor
  · rintro ⟨shape, -, -, apart⟩
    use shape, apart
  · rintro ⟨shape, apart⟩
    refine ⟨shape, misses_of_lacks ?_ (lacks_of_not_mem colon), ends, apart⟩
    intro _ r hr
    simp only [isColonAt, Bool.and_eq_true, beq_iff_eq] at hr
    apply hr.1

/-- A declaration is taken apart behind a name. -/
theorem IsName.splitNames (h : IsName q i) (hr : rest.head? ≠ some '=') :
  Declaration.splitNames (q ++ ':' :: rest) = .ok (q, rest)
  := by
  apply (splitNames_eq_ok_iff (h.not_mem (by decide) (by decide)) h.balanced.after).2 ⟨rfl, hr⟩

/-- The names of a declaration and what stands behind them are read exactly if the declaration
has the names of the grammar before its colon. -/
theorem exists_splitNames_iff (hc : IsWord objectClass) {rest : Text} :
  (∃ before, splitNames t = .ok (before, rest) ∧ names objectClass before = .ok is) ↔
    ∃ before, t = before ++ ':' :: rest ∧ rest.head? ≠ some '=' ∧
      IsNamePart objectClass before is
  := by
  apply exists_congr
  intro before
  rw [names_eq_ok_iff hc, ← and_assoc]
  apply and_congr_left
  intro h
  apply splitNames_eq_ok_iff (h.not_mem hc (by decide) (by decide) (by decide))
    (h.balanced hc).after

/-! ### Names one by one -/

/-- A list of names without a comma is a single name. -/
theorem IsNameList.of_comma_not_mem (h : IsNameList t is) (ht : ',' ∉ t) :
  ∃ i, is = [i] ∧ IsName t i
  := by
  cases h with
  | one name => exact ⟨_, rfl, name⟩
  | cons => simp at ht

/-- Before the first comma of a list of names stands a name, and behind it a list of names. -/
theorem IsNameList.of_append_comma (h : IsNameList (s ++ ',' :: t) is) (hs : ',' ∉ s) :
  ∃ i is', is = i :: is' ∧ IsName s i ∧ IsNameList t is'
  := by
  generalize eq : s ++ ',' :: t = whole at h
  cases h with
  | one name =>
    apply absurd _ (name.not_mem (c := ',') (by decide) (by decide))
    rw [← eq]
    simp
  | cons name list =>
    obtain ⟨rfl, rfl⟩ := Text.append_cons_inj hs (name.not_mem (by decide) (by decide)) eq
    exact ⟨_, _, rfl, name, list⟩

/-- Blanks around a list of names do not matter. -/
theorem isNameList_trim :
  IsNameList t.trim is ↔ IsNameList t is
  := by
  rw [isNameList_iff, isNameList_iff, split_trim (by decide)]

/-- Blanks before a list of names do not matter. -/
theorem isNameList_append {gap : Text} (hgap : ∀ c ∈ gap, isBlank c) :
  IsNameList (gap ++ t) is ↔ IsNameList t is
  := by
  rw [isNameList_iff, isNameList_iff, split_append_left hgap (by decide)]

/-- Behind the first of several names stand a comma and a space. -/
theorem join_cons_cons (n n' : Text) (ns : List Text) :
  Text.join ", " (n :: n' :: ns) = n ++ ',' :: ([' '] ++ Text.join ", " (n' :: ns))
  := by
  simp [Text.join]

/-- Texts without commas that make up a list of names are its names. -/
theorem IsNameList.of_join {ns : List Text} (h : IsNameList (Text.join ", " ns) is)
    (hn : ∀ n ∈ ns, ',' ∉ n) :
  List.Forall₂ IsName ns is
  := by
  induction ns generalizing is with
  | nil =>
    obtain ⟨i, rfl, name⟩ := h.of_comma_not_mem (by simp [Text.join])
    exact absurd (isName_iff.1 name).symm i.isWord.ne_nil
  | cons n ns ih =>
    have comma := hn n List.mem_cons_self
    cases ns with
    | nil =>
      rw [Text.join, List.intercalate_singleton] at h
      obtain ⟨i, rfl, name⟩ := h.of_comma_not_mem comma
      apply List.Forall₂.cons name List.Forall₂.nil
    | cons n' ns =>
      rw [join_cons_cons] at h
      obtain ⟨i, is', rfl, name, list⟩ := h.of_append_comma comma
      apply List.Forall₂.cons name
      apply ih ((isNameList_append (by decide)).1 list)
      intro m hm
      apply hn m (List.mem_cons_of_mem n hm)

/-- Without a comma the names of a declaration are a single one. -/
theorem IsNamePart.of_comma_not_mem (h : IsNamePart objectClass t is) (ht : ',' ∉ t) :
  ∃ i, is = [i]
  := by
  cases h with
  | bare _ list =>
    obtain ⟨i, single, -⟩ := list.of_comma_not_mem ht
    use i
  | classed _ list =>
    obtain ⟨i, single, -⟩ := list.of_comma_not_mem fun mem => ht (List.mem_append_right _ mem)
    use i

/-- Before the first comma the names of a declaration are a single one, and a list of names stands
behind it. -/
theorem IsNamePart.of_append_comma (hc : IsWord objectClass)
    (h : IsNamePart objectClass (s ++ ',' :: t) is) (hs : ',' ∉ s) :
  ∃ i is', is = i :: is' ∧ IsNamePart objectClass s [i] ∧ IsNameList t is'
  := by
  generalize eq : s ++ ',' :: t = whole at h
  cases h with
  | bare other list =>
    obtain ⟨i, is', same, name, list⟩ := (eq ▸ list).of_append_comma hs
    obtain ⟨rfl, rfl⟩ := List.cons.inj same
    exact ⟨_, _, rfl, IsNamePart.bare other (IsNameList.one name), list⟩
  | classed part list =>
    have comma : ',' ∉ _ := fun mem => by
      rcases part.forall_mem hc ',' mem with h | h
      · exact absurd h (by decide)
      · exact absurd h (by decide)
    obtain ⟨m, rfl, rfl⟩ := Text.exists_of_append_cons_eq comma eq
    obtain ⟨i, is', rfl, name, list⟩ :=
      list.of_append_comma fun mem => hs (List.mem_append_right _ mem)
    exact ⟨_, _, rfl, IsNamePart.classed part (IsNameList.one name), list⟩

/-- Each of the texts that make up the names of a declaration is a name of its own, if none is the
word for the class of the objects. -/
theorem IsNamePart.of_join {ns : List Text} (hc : IsWord objectClass)
    (h : IsNamePart objectClass (Text.join ", " ns) is)
    (hn : ∀ n ∈ ns, ',' ∉ n ∧ ¬n.trim.sameWord objectClass) :
  List.Forall₂ (fun n i => IsNamePart objectClass n [i]) ns is
  := by
  cases ns with
  | nil => exact absurd rfl h.ne_nil
  | cons n ns =>
    have comma := (hn n List.mem_cons_self).1
    cases ns with
    | nil =>
      rw [Text.join, List.intercalate_singleton] at h
      obtain ⟨i, rfl⟩ := h.of_comma_not_mem comma
      rw [List.forall₂_cons]
      apply And.intro h List.Forall₂.nil
    | cons n' ns =>
      have others : ∀ m ∈ n' :: ns, ',' ∉ m ∧ ¬m.trim.sameWord objectClass :=
        fun m hm => hn m (List.mem_cons_of_mem n hm)
      rw [join_cons_cons] at h
      obtain ⟨i, is', rfl, first, list⟩ := h.of_append_comma hc comma
      rw [List.forall₂_cons]
      use first
      have names : List.Forall₂ IsName (n' :: ns) is' := by
        apply ((isNameList_append (by decide)).1 list).of_join
        intro m hm
        apply (others m hm).1
      have both := (List.forall₂_and_left _ _).2 ⟨fun m hm => (others m hm).2, names⟩
      apply both.imp
      rintro m j ⟨other, name⟩
      rw [isName_iff.1 name] at other
      apply IsNamePart.bare other (IsNameList.one name)

/-- Blanks around the names of a declaration do not matter. -/
theorem isNamePart_trim (hc : IsWord objectClass) :
  IsNamePart objectClass t.trim is ↔ IsNamePart objectClass t is
  := by
  constructor
  · intro h
    obtain ⟨a, b, ha, hb, eq⟩ := t.exists_blanks_trim
    generalize trimmed : t.trim = m at h eq
    cases h with
    | bare other list => apply IsNamePart.bare other (isNameList_trim.1 (trimmed ▸ list))
    | @classed s u _ part list =>
      have shape : a ++ (s ++ u) ++ b = (a ++ s) ++ (u ++ b) := by simp
      rw [← eq, shape]
      apply IsNamePart.classed
      · obtain @⟨a', w, g, ha', same, gap⟩ := part
        rw [← List.append_assoc]
        apply IsClassPart.intro _ same gap
        rw [List.forall_mem_append]
        apply And.intro ha ha'
      · rw [isNameList_iff, split_append_right hb (by decide)]
        apply isNameList_iff.1 list
  · intro h
    cases h with
    | bare other list => apply IsNamePart.bare other (isNameList_trim.2 list)
    | @classed s u _ part list =>
      obtain @⟨a, w, g, ha, same, gap⟩ := part
      obtain ⟨a', b, ha', hb, eq⟩ := u.exists_blanks_trim
      have shape : a ++ (w ++ g) ++ u = a ++ (w ++ (g ++ a' ++ u.trim)) ++ b := by
        conv_lhs => rw [← eq]
        simp
      have word := hc.of_sameWord same
      have trimmed := Text.trim_append_append word.trim word.ne_nil u.trim_trim
        (isNameList_trim.2 list).ne_nil (g ++ a')
      have wide : IsGap (g ++ a') := by
        use by simp [gap.ne_nil]
        rw [List.forall_mem_append]
        apply And.intro gap.forall_mem ha'
      have part : IsClassPart objectClass ([] ++ (w ++ (g ++ a'))) :=
        IsClassPart.intro (by simp) same wide
      rw [shape, Text.trim_blanks_append trimmed ha hb]
      have := IsNamePart.classed part (isNameList_trim.2 list)
      simpa using this

end Declaration

end Testbench.Vhdl
