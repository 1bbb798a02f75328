import Testbench.Proofs.Vhdl.Header

/-!
# Design files

A design file holds entity declarations with other text before, between and behind them.
`EntityText.ofSource` finds the first declaration and counts the others.  Its search starts
anew behind each word that it reads, and since it does so at the outer level and behind a
whole word, it finds what one reading of the whole file would find: neither the text around
the declarations nor what is inside them matters.
-/

namespace Testbench.Vhdl

open Nesting

variable {name body before tail t r : Text} {closing : Option Text}

/-- A header is the word `entity`, a name and the word `is`, with gaps between them. -/
inductive IsHeader (name : Text) : Text → Prop
  | intro {entity a b is : Text} : entity.sameWord "entity" → IsGap a → IsWord name → IsGap b →
      is.sameWord "is" → IsHeader name (entity ++ (a ++ (name ++ (b ++ is))))

/-- Between the header and the word `end` stands a balanced body in which neither `end` nor
`entity` is a word at the outer level, with blanks around it that keep it apart from the
words at its ends. -/
structure IsInside (body t : Text) : Prop where
  blanks : ∃ a b : Text, (∀ c ∈ a, isBlank c) ∧ (∀ c ∈ b, isBlank c) ∧ a ++ body ++ b = t
  balanced : Balanced body
  lacks_end : LacksWord "end" body
  lacks_entity : LacksWord "entity" body
  ne_nil : t ≠ []
  head : ¬t.head?.any isWordChar
  last : ¬t.getLast?.any isWordChar

/-- Behind the word `end` stand the word `entity` and the name of what is closed, and either
may be missing; a name that follows `end` is not read as the word `entity`. -/
inductive IsTail : Option Text → Text → Prop
  | plain {b : Text} : (∀ c ∈ b, isBlank c) → IsTail none (b ++ [';'])
  | keyword {a entity b : Text} : IsGap a → entity.sameWord "entity" → (∀ c ∈ b, isBlank c) →
      IsTail none (a ++ (entity ++ (b ++ [';'])))
  | named {a m b : Text} : IsGap a → IsWord m → ¬m.sameWord "entity" → (∀ c ∈ b, isBlank c) →
      IsTail (some m) (a ++ (m ++ (b ++ [';'])))
  | keywordNamed {a entity a' m b : Text} : IsGap a → entity.sameWord "entity" → IsGap a' →
      IsWord m → (∀ c ∈ b, isBlank c) →
      IsTail (some m) (a ++ (entity ++ (a' ++ (m ++ (b ++ [';'])))))

/-- Around declarations stand balanced texts in which `entity` is no word at the outer level
and which end with no word. -/
structure IsFiller (t : Text) : Prop where
  balanced : Balanced t
  lacks : LacksWord "entity" t
  last : ¬t.getLast?.any isWordChar

/-- An entity declaration, in its parts, with the text that follows it. -/
structure DesignUnit where
  name : Text
  body : Text
  closing : Option Text
  header : Text
  inside : Text
  ending : Text
  tail : Text
  filler : Text
  isHeader : IsHeader name header
  isInside : IsInside body inside
  isEnding : ending.sameWord "end"
  isTail : IsTail closing tail
  isFiller : IsFiller filler

/-- A design unit as it is written. -/
def DesignUnit.text (u : DesignUnit) : Text :=
  u.header ++ (u.inside ++ (u.ending ++ (u.tail ++ u.filler)))

/-! ### The parts of a unit -/

namespace IsInside

/-- Behind the inside of a declaration the outer level is reached again. -/
theorem after (h : IsInside body t) :
  outer.after t = outer
  := by
  obtain ⟨a, b, ha, hb, rfl⟩ := h.blanks
  rw [after_append, after_append, after_of_isBlank ha, h.balanced.after, after_of_isBlank hb]

/-- The inside of a declaration lacks the words that its body lacks. -/
theorem lacksWord {w : Text} (hw : IsWord w) (h : IsInside body t) (lacks : LacksWord w body) :
  LacksWord w t
  := by
  obtain ⟨a, b, ha, hb, rfl⟩ := h.blanks
  rw [lacksWord_iff hw, misses_isWordAt_trim hw] at lacks ⊢
  rw [Text.trim_append_blanks ha hb]
  apply lacks

/-- The trim of the inside of a declaration is the one of its body. -/
theorem trim (h : IsInside body t) :
  t.trim = body.trim
  := by
  obtain ⟨a, b, ha, hb, rfl⟩ := h.blanks
  apply Text.trim_append_blanks ha hb

end IsInside

/-- Blanks and a semicolon begin no word. -/
theorem not_head_semicolon {b : Text} (hb : ∀ c ∈ b, isBlank c) :
  ¬(b ++ ';' :: r).head?.any isWordChar
  := by
  cases b with
  | nil =>
    have semicolon : ¬isWordChar ';' := by decide
    simpa using semicolon
  | cons c b => apply not_head_isWordChar (t := c :: b) hb

/-- No word follows the blanks before a semicolon. -/
theorem nextWord?_semicolon {b : Text} (hb : ∀ c ∈ b, isBlank c) :
  nextWord? (b ++ ';' :: r) = none
  := nextWord?_eq_none hb (by decide) (by decide)

/-- A word behind blanks is read up to the blanks before a semicolon. -/
theorem nextWord?_word_semicolon {a m b : Text} (ha : ∀ c ∈ a, isBlank c) (hm : IsWord m)
    (hb : ∀ c ∈ b, isBlank c) :
  nextWord? (a ++ (m ++ (b ++ ';' :: r))) = some (m, b ++ ';' :: r)
  := nextWord?_eq_some_iff.2 ⟨hm, not_head_semicolon hb, a, ha, rfl⟩

/-- The tail of a declaration does not continue the word `end`. -/
theorem IsTail.head (h : IsTail closing tail) :
  ¬(tail ++ r).head?.any isWordChar
  := by
  cases h with
  | plain hb =>
    rw [List.append_assoc]
    apply not_head_semicolon hb
  | keyword ha | named ha | keywordNamed ha =>
    rw [List.append_assoc]
    apply ha.head

namespace EntityText

/-- From a tail the name that closes the declaration is read, up to the semicolon. -/
theorem readClosing_append (h : IsTail closing tail) :
  ∃ b : Text, (∀ c ∈ b, isBlank c) ∧ readClosing (tail ++ r) = (closing, b ++ ';' :: r)
  := by
  cases h with
  | @plain b hb =>
    use b, hb
    rw [readClosing, List.append_assoc, List.singleton_append, nextWord?_semicolon hb]
  | @keyword a entity b ha same hb =>
    use b, hb
    have first := nextWord?_word_semicolon (r := r) ha.forall_mem
      (isWord_entity.of_sameWord same) hb
    simp only [readClosing, List.append_assoc, List.singleton_append, first, same, if_true,
      nextWord?_semicolon hb]
  | @named a m b ha hm other hb =>
    use b, hb
    simp only [readClosing, List.append_assoc, List.singleton_append,
      nextWord?_word_semicolon ha.forall_mem hm hb, if_neg other]
  | @keywordNamed a entity a' m b ha same ha' hm hb =>
    use b, hb
    have first : nextWord? (a ++ (entity ++ (a' ++ (m ++ (b ++ ';' :: r))))) =
        some (entity, a' ++ (m ++ (b ++ ';' :: r))) :=
      nextWord?_eq_some_iff.2
        ⟨isWord_entity.of_sameWord same, ha'.head _, a, ha.forall_mem, rfl⟩
    simp only [readClosing, List.append_assoc, List.singleton_append, first, same, if_true,
      nextWord?_word_semicolon ha'.forall_mem hm hb]

/-! ### The search for a header -/

/-- No header is read from the blanks before a semicolon. -/
theorem readHeader?_semicolon {b : Text} (hb : ∀ c ∈ b, isBlank c) :
  readHeader? (b ++ ';' :: r) = none
  := by
  rw [readHeader?, nextWord?_semicolon hb]
  rfl

/-- No header is read from one word before a semicolon. -/
theorem readHeader?_word_semicolon {a m b : Text} (ha : ∀ c ∈ a, isBlank c) (hm : IsWord m)
    (hb : ∀ c ∈ b, isBlank c) :
  readHeader? (a ++ (m ++ (b ++ ';' :: r))) = none
  := by
  rw [readHeader?, nextWord?_word_semicolon ha hm hb]
  simp only [Option.bind_eq_bind, Option.bind_some, nextWord?_semicolon hb, Option.bind_none]

/-- A header is found where it stands. -/
theorem nextHeader?_header_append {header : Text} (h : IsHeader name header)
    (hr : ¬r.head?.any isWordChar) :
  nextHeader? (header ++ r) = some (name, r)
  := by
  obtain ⟨same, ha, word, hb, his⟩ := h
  simp only [List.append_assoc]
  rw [nextHeader?_keyword_append same (ha.head _), readHeader?_eq ha.forall_mem word hb his hr,
    Option.some_or]

/-- The search for a header passes over plain characters that belong to no word. -/
theorem nextHeader?_plain_append {s : Text} (hs : ∀ c ∈ s, ¬isWordChar c)
    (plain : ∀ c ∈ s, IsPlain c) :
  nextHeader? (s ++ t) = nextHeader? t
  := by
  apply nextHeader?_append _ (after_of_isPlain plain)
  · apply apart_of_last
    intro last
    rw [Option.any_eq_true] at last
    obtain ⟨c, hc, word⟩ := last
    apply hs c (List.mem_of_getLast? hc) word
  · apply (lacksWord_iff isWord_entity).2
    apply misses_isWordAt_of_not_isWordChar isWord_entity hs

/-- The search for a header passes over blanks. -/
theorem nextHeader?_blanks_append {b : Text} (hb : ∀ c ∈ b, isBlank c) :
  nextHeader? (b ++ t) = nextHeader? t
  := nextHeader?_plain_append (fun c hc => not_isWordChar_of_isBlank (hb c hc))
    fun c hc => isPlain_of_isBlank (hb c hc)

/-- The search for a header passes over blanks and a semicolon. -/
theorem nextHeader?_semicolon {b : Text} (hb : ∀ c ∈ b, isBlank c) :
  nextHeader? (b ++ ';' :: r) = nextHeader? r
  := by
  have semicolon : ∀ c ∈ [';'], ¬isWordChar c ∧ IsPlain c := by decide
  rw [nextHeader?_blanks_append hb]
  apply nextHeader?_plain_append (fun c hc => (semicolon c hc).1) fun c hc => (semicolon c hc).2

/-- The search for a header passes over each word other than `entity`. -/
theorem nextHeader?_word_append {w : Text} (hw : IsWord w) (other : ¬w.sameWord "entity")
    (ht : ¬t.head?.any isWordChar) :
  nextHeader? (w ++ t) = nextHeader? t
  := by
  apply nextHeader?_append _ hw.balanced.after (apart_of_head ht)
  apply (lacksWord_iff isWord_entity).2
  apply misses_isWordAt_of_isWord hw isWord_entity other (by simp)

/-- The search for a header passes over the tail of a declaration: no header is read behind
a word `entity` in it. -/
theorem nextHeader?_tail_append (h : IsTail closing tail) :
  nextHeader? (tail ++ r) = nextHeader? r
  := by
  cases h with
  | plain hb =>
    rw [List.append_assoc]
    apply nextHeader?_semicolon hb
  | @keyword a entity b ha same hb =>
    simp only [List.append_assoc, List.singleton_append]
    rw [nextHeader?_blanks_append ha.forall_mem,
      nextHeader?_keyword_append same (not_head_semicolon hb), readHeader?_semicolon hb,
      Option.none_or, nextHeader?_semicolon hb]
  | @named a m b ha hm other hb =>
    simp only [List.append_assoc, List.singleton_append]
    rw [nextHeader?_blanks_append ha.forall_mem,
      nextHeader?_word_append hm other (not_head_semicolon hb), nextHeader?_semicolon hb]
  | @keywordNamed a entity a' m b ha same ha' hm hb =>
    simp only [List.append_assoc, List.singleton_append]
    rw [nextHeader?_blanks_append ha.forall_mem, nextHeader?_keyword_append same (ha'.head _),
      readHeader?_word_semicolon ha'.forall_mem hm hb, Option.none_or,
      nextHeader?_blanks_append ha'.forall_mem]
    -- an entity may be named `entity`
    by_cases named : m.sameWord "entity"
    · rw [nextHeader?_keyword_append named (not_head_semicolon hb), readHeader?_semicolon hb,
        Option.none_or, nextHeader?_semicolon hb]
    · rw [nextHeader?_word_append hm named (not_head_semicolon hb), nextHeader?_semicolon hb]

end EntityText

open EntityText

namespace DesignUnit

/-- The first header behind a filler is the one of the unit that follows. -/
theorem nextHeader?_text_append (hf : IsFiller before) (u : DesignUnit) :
  nextHeader? (before ++ (u.text ++ r)) =
    some (u.name, u.inside ++ (u.ending ++ (u.tail ++ (u.filler ++ r))))
  := by
  rw [nextHeader?_append hf.lacks hf.balanced.after (apart_of_last hf.last), text]
  simp only [List.append_assoc]
  apply nextHeader?_header_append u.isHeader
  rw [List.head?_append_of_ne_nil _ u.isInside.ne_nil]
  apply u.isInside.head

/-- Behind the header of a unit no other one is found before the end of the unit. -/
theorem nextHeader?_inside_append (u : DesignUnit) :
  nextHeader? (u.inside ++ (u.ending ++ (u.tail ++ r))) = nextHeader? r
  := by
  have ending : IsWord u.ending := isWord_end.of_sameWord u.isEnding
  have other : ¬u.ending.sameWord "entity" := by
    intro same
    have len := Text.length_eq_of_sameWord same
    rw [Text.length_eq_of_sameWord u.isEnding] at len
    revert len
    decide
  rw [nextHeader?_append (u.isInside.lacksWord isWord_entity u.isInside.lacks_entity)
      u.isInside.after (apart_of_last u.isInside.last),
    nextHeader?_word_append ending other u.isTail.head, nextHeader?_tail_append u.isTail]

/-- Each unit of a design file has one header. -/
theorem countHeaders_flatMap_text (hf : IsFiller before) (us : List DesignUnit) :
  countHeaders (before ++ us.flatMap text) = us.length
  := by
  induction us generalizing before with
  | nil =>
    have absent := (splitWord?_eq_none_iff_lacksWord isWord_entity).2 hf.lacks
    apply countHeaders_eq_zero
    rw [List.flatMap_nil, List.append_nil, nextHeader?_eq, absent, Option.bind_none]
  | cons u us ih =>
    rw [List.flatMap_cons, countHeaders_eq_succ (nextHeader?_text_append hf u),
      countHeaders_congr u.nextHeader?_inside_append, ih u.isFiller, List.length_cons]

/-- The body of a unit ends at the word `end` of the unit. -/
theorem splitWord?_inside_append (u : DesignUnit) :
  splitWord? "end" (u.inside ++ (u.ending ++ (u.tail ++ r))) = some (u.inside, u.tail ++ r)
  := by
  have lacks := u.isInside.lacksWord isWord_end u.isInside.lacks_end
  apply (splitWord?_eq_some_iff isWord_end).2
  use u.ending, rfl, u.isEnding
  refine ⟨?_, u.isInside.after, u.isInside.last, u.isTail.head⟩
  apply (misses_isWordAt_append isWord_end (apart_of_last u.isInside.last)).2
  apply (lacksWord_iff isWord_end).1 lacks

end DesignUnit

/-- What is found in a design file is its first unit: its closing name has to be its own,
no other unit may follow, and then its name and the trim of its body are returned. -/
theorem EntityText.ofSource_designFile (hf : IsFiller before) (u : DesignUnit)
    (us : List DesignUnit) :
  (∀ m ∈ u.closing, ¬m.sameWord u.name →
    ofSource (before ++ (u :: us).flatMap DesignUnit.text) = .error (.nameMismatch u.name m)) ∧
  ((∀ m ∈ u.closing, m.sameWord u.name) →
    ofSource (before ++ (u :: us).flatMap DesignUnit.text) =
      if us = [] then .ok ⟨u.name, u.body.trim⟩ else .error (.multipleEntities (us.length + 1)))
  := by
  obtain ⟨b, hb, closing⟩ :=
    readClosing_append (r := u.filler ++ us.flatMap DesignUnit.text) u.isTail
  have start : Text.trimStart (b ++ ';' :: (u.filler ++ us.flatMap DesignUnit.text)) =
      ';' :: (u.filler ++ us.flatMap DesignUnit.text) := by
    rw [Text.trimStart_append hb, Text.trimStart_cons (by decide)]
  have count := DesignUnit.countHeaders_flatMap_text u.isFiller us
  have header := DesignUnit.nextHeader?_text_append (r := us.flatMap DesignUnit.text) hf u
  rw [List.flatMap_cons, ofSource_eq header u.splitWord?_inside_append closing start, count,
    u.isInside.trim]
  constructor
  · intro m hm other
    have kept : u.closing.filter (fun c => !c.sameWord u.name) = some m := by
      rw [Option.filter_eq_some_iff]
      use hm
      simpa using other
    rw [kept]
  · intro same
    have dropped : u.closing.filter (fun c => !c.sameWord u.name) = none := by
      rw [Option.filter_eq_none_iff]
      intro m hm
      simpa using same m hm
    rw [dropped]
    simp only [List.length_eq_zero_iff]

/-- The unit `Entity Latch Is port (entity : in bit); end_mark END latch ;`. -/
def latchUnit : DesignUnit where
  name := "Latch"
  body := "port (entity : in bit); end_mark"
  closing := some "latch"
  header := "Entity Latch Is"
  inside := " port (entity : in bit); end_mark "
  ending := "END"
  tail := " latch ;"
  filler := " -- \"entity\" "
  isHeader :=
    @IsHeader.intro "Latch" "Entity" " " " " "Is" (by decide) ⟨by decide, by decide⟩
      ⟨by decide, by decide⟩ ⟨by decide, by decide⟩ (by decide)
  isInside := {
    blanks := ⟨" ", " ", by decide, by decide, by decide⟩
    balanced := by decide
    lacks_end := (splitWord?_eq_none_iff_lacksWord isWord_end).1 (by decide)
    lacks_entity := (splitWord?_eq_none_iff_lacksWord isWord_entity).1 (by decide)
    ne_nil := by decide
    head := by decide
    last := by decide }
  isEnding := by decide
  isTail :=
    @IsTail.named " " "latch" " " ⟨by decide, by decide⟩ ⟨by decide, by decide⟩ (by decide)
      (by decide)
  isFiller :=
    ⟨by decide, (splitWord?_eq_none_iff_lacksWord isWord_entity).1 (by decide), by decide⟩

/-- The latch is found behind a library clause, and twice in a file it is too many. -/
theorem ofSource_latchUnit :
  IsFiller "library ieee; " ∧
  EntityText.ofSource ("library ieee; " ++ [latchUnit].flatMap DesignUnit.text) =
    .ok ⟨"Latch", "port (entity : in bit); end_mark"⟩ ∧
  EntityText.ofSource ("library ieee; " ++ [latchUnit, latchUnit].flatMap DesignUnit.text) =
    .error (.multipleEntities 2)
  := by
  have filler : IsFiller "library ieee; " :=
    ⟨by decide, (splitWord?_eq_none_iff_lacksWord isWord_entity).1 (by decide), by decide⟩
  have closed : ∀ m ∈ latchUnit.closing, m.sameWord latchUnit.name := by decide
  use filler, (EntityText.ofSource_designFile filler latchUnit []).2 closed
  apply (EntityText.ofSource_designFile filler latchUnit [latchUnit]).2 closed

end Testbench.Vhdl
