import Testbench.Proofs.Case.Character
import Testbench.Proofs.Nesting.Balanced

/-!
# Words

A word is a longest run of word characters.  Whether a word stands at a place depends on
the text around it only as far as this text continues the word; so two texts that are
`Apart`, of which no word runs from one into the other, can be searched by themselves.
A text `LacksWord` when a search for the word finds no place in it, and a search passes over
such a text.
-/

namespace Testbench.Vhdl

open Nesting

variable {word w found s t r before rest : Text} {prev prev' : Option Char} {n : Nesting}
  {c : Char}

/-- A word that a search may look for is not empty and consists of word characters. -/
structure IsWord (w : Text) : Prop where
  ne_nil : w ≠ []
  forall_mem : ∀ c ∈ w, isWordChar c

/-- No word runs from the end of `s` into `r`. -/
def Apart (s r : Text) : Prop := ¬(s.getLast?.any isWordChar ∧ r.head?.any isWordChar)

theorem apart_of_head (h : ¬r.head?.any isWordChar) :
  Apart s r
  := fun both => h both.2

theorem apart_cons (h : ¬isWordChar c) :
  Apart s (c :: r)
  := apart_of_head h

theorem apart_of_last (h : ¬s.getLast?.any isWordChar) :
  Apart s r
  := fun both => h both.1

/-- The characters of words are ASCII characters. -/
theorem toNat_lt_of_isWordChar (hc : isWordChar c) :
  c.toNat < 128
  := by
  have kinds : (((c.isUpper || c.isLower) || c.isDigit) || c == '_') = true := hc
  simp only [Bool.or_eq_true, beq_iff_eq] at kinds
  rcases kinds with ((capital | small) | digit) | rfl
  · have bounds : 65 ≤ c.toNat ∧ c.toNat ≤ 90 := of_decide_eq_true capital
    omega
  · have bound : c.toNat ≤ 122 := of_decide_eq_true (Bool.and_eq_true_iff.1 small).2
    omega
  · have bound : c.toNat ≤ 57 := of_decide_eq_true (Bool.and_eq_true_iff.1 digit).2
    omega
  · decide

/-- A blank is no character of a word. -/
theorem not_isWordChar_of_isBlank (hc : isBlank c) :
  ¬isWordChar c
  := by
  intro word
  have ascii : ∀ i : Fin 128, isBlank (Char.ofNat i) → ¬isWordChar (Char.ofNat i) := by decide
  have := ascii ⟨c.toNat, toNat_lt_of_isWordChar word⟩
  rw [Char.ofNat_toNat] at this
  apply this hc word

/-- Blanks begin no word. -/
theorem not_head_isWordChar (ht : ∀ c ∈ t, isBlank c) :
  ¬t.head?.any isWordChar
  := by
  cases t with
  | nil => simp
  | cons c t => simpa using not_isWordChar_of_isBlank (ht c List.mem_cons_self)

/-- Blanks end no word. -/
theorem not_last_isWordChar (ht : ∀ c ∈ t, isBlank c) :
  ¬t.getLast?.any isWordChar
  := by
  intro h
  rw [Option.any_eq_true] at h
  obtain ⟨c, hc, word⟩ := h
  apply not_isWordChar_of_isBlank (ht c (List.mem_of_getLast? hc)) word

/-- Words are kept apart by one or more blanks. -/
structure IsGap (g : Text) : Prop where
  ne_nil : g ≠ []
  forall_mem : ∀ c ∈ g, isBlank c

/-- What begins with a gap begins with no word. -/
theorem IsGap.head {g : Text} (hg : IsGap g) (r : Text) :
  ¬(g ++ r).head?.any isWordChar
  := by
  rw [List.head?_append_of_ne_nil _ hg.ne_nil]
  apply not_head_isWordChar hg.forall_mem

/-- A word is written in word characters, whatever the case of its letters. -/
theorem IsWord.of_sameWord (hw : IsWord w) (h : found.sameWord w) :
  IsWord found
  := by
  rw [Text.sameWord_iff] at h
  constructor
  · rintro rfl
    apply hw.ne_nil
    simpa [Text.lower] using h.symm
  · intro c hc
    have lowered : c.toLower ∈ w.lower := by
      rw [← h]
      apply List.mem_map_of_mem hc
    obtain ⟨d, hd, eq⟩ := List.mem_map.1 lowered
    rw [← isWordChar_toLower, ← eq, isWordChar_toLower]
    apply hw.forall_mem d hd

theorem IsWord.last (hw : IsWord w) :
  w.getLast?.any isWordChar
  := by
  rw [List.getLast?_eq_some_getLast hw.ne_nil]
  apply hw.forall_mem
  apply List.getLast_mem

theorem IsWord.head (hw : IsWord w) :
  w.head?.any isWordChar
  := by
  cases w with
  | nil => apply absurd rfl hw.ne_nil
  | cons c w => apply hw.forall_mem c List.mem_cons_self

/-- Words hold no character of another kind. -/
theorem IsWord.not_mem {c : Char} (hw : IsWord w) (hc : ¬isWordChar c) :
  c ∉ w
  := fun mem => hc (hw.forall_mem c mem)

/-- Words are balanced. -/
theorem IsWord.balanced (hw : IsWord w) :
  Balanced w
  := Balanced.of_isPlain fun c hc => isPlain_of_isWordChar (hw.forall_mem c hc)

/-- Words are trimmed. -/
theorem IsWord.trim (hw : IsWord w) :
  w.trim = w
  := by
  rw [Text.trim_eq_self_iff]
  constructor
  · intro c hc blank
    apply not_isWordChar_of_isBlank blank (hw.forall_mem c (List.mem_of_mem_head? hc))
  · intro c hc blank
    apply not_isWordChar_of_isBlank blank (hw.forall_mem c (List.mem_of_getLast? hc))

/-- A text that begins with a word begins with one of its characters. -/
theorem IsWord.head_append (hw : IsWord w) (r : Text) :
  (w ++ r).head?.any isWordChar
  := by
  rw [List.head?_append_of_ne_nil _ hw.ne_nil]
  apply hw.head

/-- A text that begins with a character of a word begins with no blank. -/
theorem not_isBlank_of_head (h : t.head?.any isWordChar) :
  ∀ c ∈ t.head?, ¬isBlank c
  := by
  intro c hc blank
  rw [Option.mem_def.1 hc] at h
  apply not_isWordChar_of_isBlank blank h

/-- No blanks stand before a text that begins with a word. -/
theorem IsWord.trimStart_append (hw : IsWord w) (r : Text) :
  (w ++ r).trimStart = w ++ r
  := Text.trimStart_eq_self (not_isBlank_of_head (hw.head_append r))

/-! ### Words at a place -/

/-- A word stands at a place exactly if the text there begins with it, in any case, and
neither the character before nor the one behind continues it. -/
theorem isWordAt_iff :
  isWordAt word prev t ↔ ¬prev.any isWordChar ∧
    ∃ found rest, t = found ++ rest ∧ found.sameWord word ∧ ¬rest.head?.any isWordChar
  := by
  simp only [isWordAt, Bool.and_eq_true, Bool.not_eq_true', Bool.not_eq_true]
  constructor
  · rintro ⟨⟨same, before⟩, behind⟩
    use before, t.take word.length, t.drop word.length
    use (List.take_append_drop _ _).symm, same, behind
  · rintro ⟨before, found, rest, rfl, same, behind⟩
    have len := Text.length_eq_of_sameWord same
    rw [List.take_left' len, List.drop_left' len]
    use ⟨same, before⟩, behind

theorem isWordAt_congr (h : prev.any isWordChar = prev'.any isWordChar) :
  isWordAt word prev t = isWordAt word prev' t
  := by
  rw [isWordAt, isWordAt, h]

/-- No word stands where a text begins with another character. -/
theorem not_isWordAt_of_head (hw : IsWord word) (h : ¬t.head?.any isWordChar) :
  ¬isWordAt word prev t
  := by
  rw [isWordAt_iff]
  rintro ⟨-, found, rest, rfl, same, -⟩
  apply h ((hw.of_sameWord same).head_append rest)

/-- Where no word runs on into the text behind, this text does not matter. -/
theorem isWordAt_append (hw : IsWord word) (hs : s ≠ []) (apart : Apart s r) :
  isWordAt word prev (s ++ r) = isWordAt word prev s
  := by
  rw [Bool.eq_iff_iff, isWordAt_iff, isWordAt_iff]
  apply and_congr_right
  intro _
  constructor
  · rintro ⟨found, rest, eq, same, behind⟩
    have isWord := hw.of_sameWord same
    rcases List.append_eq_append_iff.1 eq with ⟨a, rfl, rfl⟩ | ⟨a, rfl, rfl⟩
    · cases a with
      | nil => use s, [], by simp, by simpa using same, by simp
      | cons c a =>
        -- the word would run on from `s`
        exfalso
        apply apart
        have mem : ∀ d ∈ s ++ c :: a, isWordChar d := isWord.forall_mem
        rw [List.getLast?_eq_some_getLast hs]
        use mem _ (List.mem_append_left _ (List.getLast_mem hs))
        apply mem c (by simp)
    · cases a with
      | nil => use found, [], rfl, same, by simp
      | cons c a => use found, c :: a, rfl, same, behind
  · rintro ⟨found, rest, rfl, same, behind⟩
    have isWord := hw.of_sameWord same
    use found, rest ++ r, by simp, same
    cases rest with
    | nil =>
      intro h
      apply apart ⟨_, h⟩
      rw [List.append_nil]
      apply isWord.last
    | cons c rest => apply behind

/-- Where no word runs on into the text behind, a search does not depend on this text. -/
theorem misses_isWordAt_append (hw : IsWord word) (apart : Apart s r) :
  Misses (isWordAt word) n prev s r ↔ Misses (isWordAt word) n prev s []
  := by
  induction s generalizing n prev with
  | nil => simp
  | cons c s ih =>
    rw [misses_cons, misses_cons, ← List.cons_append, isWordAt_append hw (by simp) apart,
      List.append_nil]
    apply and_congr_right
    intro _
    cases s with
    | nil => simp
    | cons d s =>
      apply ih
      rw [Apart, List.getLast?_cons_cons] at apart
      apply apart

/-- A search does not depend on the character before the text, unless it continues a word
with which the text begins. -/
theorem misses_isWordAt_congr (hw : IsWord word)
    (h : prev.any isWordChar = prev'.any isWordChar ∨ ¬s.head?.any isWordChar) :
  Misses (isWordAt word) n prev s r ↔ Misses (isWordAt word) n prev' s r
  := by
  cases s with
  | nil => simp
  | cons c s =>
    rw [misses_cons, misses_cons]
    apply and_congr_left
    intro _
    rcases h with h | h
    · rw [isWordAt_congr h]
    · have absent : ∀ prev, ¬isWordAt word prev (c :: (s ++ r)) :=
        fun prev => not_isWordAt_of_head hw h
      simp [absent]

/-- A character that belongs to no word is passed over in a search. -/
theorem misses_isWordAt_cons (hw : IsWord word) (hc : ¬isWordChar c) :
  Misses (isWordAt word) n prev (c :: s) r ↔ Misses (isWordAt word) (n.next c) (some c) s r
  := by
  rw [misses_cons]
  apply and_iff_right
  rintro ⟨-, found⟩
  apply not_isWordAt_of_head hw _ found
  apply hc

/-- Characters of other kinds are passed over in a search. -/
theorem misses_isWordAt_of_not_isWordChar (hw : IsWord word) (hs : ∀ c ∈ s, ¬isWordChar c) :
  Misses (isWordAt word) n prev s r
  := by
  induction s generalizing n prev with
  | nil => trivial
  | cons c s ih =>
    rw [misses_isWordAt_cons hw (hs c List.mem_cons_self)]
    apply ih
    intro d hd
    apply hs d (List.mem_cons_of_mem c hd)

/-- Behind a word character no word begins in word characters. -/
theorem misses_isWordAt_behind (hc : isWordChar c) (hs : ∀ d ∈ s, isWordChar d) :
  Misses (isWordAt word) n (some c) s r
  := by
  induction s generalizing c n with
  | nil => trivial
  | cons d s ih =>
    constructor
    · rintro ⟨-, found⟩
      apply (isWordAt_iff.1 found).1 hc
    · apply ih (hs d List.mem_cons_self) fun e he => hs e (List.mem_cons_of_mem d he)

theorem takeWhile_isWordChar_append (hs : ∀ c ∈ s, isWordChar c) (hr : ¬r.head?.any isWordChar) :
  (s ++ r).takeWhile isWordChar = s
  := by
  rw [List.takeWhile_append_of_pos hs]
  cases r with
  | nil => simp
  | cons c r =>
    have : ¬isWordChar c := hr
    simp [this]

theorem dropWhile_isWordChar_append (hs : ∀ c ∈ s, isWordChar c) (hr : ¬r.head?.any isWordChar) :
  (s ++ r).dropWhile isWordChar = r
  := by
  have whole : (s ++ r).takeWhile isWordChar ++ (s ++ r).dropWhile isWordChar = s ++ r :=
    List.takeWhile_append_dropWhile
  rw [takeWhile_isWordChar_append hs hr] at whole
  apply List.append_cancel_left whole

/-- A word misses each other word. -/
theorem misses_isWordAt_of_isWord (hs : IsWord s) (hw : IsWord word) (other : ¬s.sameWord word)
    (hr : ¬r.head?.any isWordChar) :
  Misses (isWordAt word) n prev s r
  := by
  have chars := hs.forall_mem
  cases s with
  | nil => trivial
  | cons c s =>
    constructor
    · rintro ⟨-, found⟩
      obtain ⟨-, found, rest, eq, same, behind⟩ := isWordAt_iff.1 found
      have left := takeWhile_isWordChar_append chars hr
      rw [List.cons_append, eq,
        takeWhile_isWordChar_append (hw.of_sameWord same).forall_mem behind] at left
      rw [← left] at other
      apply other same
    · apply misses_isWordAt_behind (chars c List.mem_cons_self)
      intro d hd
      apply chars d (List.mem_cons_of_mem c hd)

/-! ### Texts that lack a word -/

/-- A word does not stand at the outer level in a text: wherever it is written there, in any
case, it is a part of a longer word. -/
def LacksWord (word t : Text) : Prop :=
  ∀ a found b, t = a ++ (found ++ b) → found.sameWord word → outer.after a = outer →
    a.getLast?.any isWordChar ∨ b.head?.any isWordChar

/-- A text lacks a word exactly if a search for it finds no place. -/
theorem lacksWord_iff (hw : IsWord word) :
  LacksWord word t ↔ Misses (isWordAt word) outer none t []
  := by
  rw [misses_iff]
  simp only [isWordAt_iff, behind_eq, Option.or_none, isOuter_iff, List.append_nil]
  constructor
  · rintro lacks a b split - ends ⟨first, found, rest, rfl, same, last⟩
    rcases lacks a found rest split same ends with h | h
    · apply first h
    · apply last h
  · intro misses a found b split same ends
    by_contra both
    rw [not_or] at both
    have ne : found ++ b ≠ [] := by simp [(hw.of_sameWord same).ne_nil]
    apply misses a (found ++ b) split ne ends ⟨both.1, found, b, rfl, same, both.2⟩

/-! ### Searching for words -/

/-- A text is split at the first place at the outer level where the word stands. -/
theorem splitWord?_eq_some_iff (hw : IsWord word) :
  splitWord? word t = some (before, rest) ↔
    ∃ found, t = before ++ (found ++ rest) ∧ found.sameWord word ∧
      Misses (isWordAt word) outer none before (found ++ rest) ∧ outer.after before = outer ∧
      ¬before.getLast?.any isWordChar ∧ ¬rest.head?.any isWordChar
  := by
  rw [splitWord?]
  simp only [Option.map_eq_some_iff, Prod.exists, Prod.mk.injEq, splitWhere_eq_some_iff,
    isWordAt_iff, behind_eq, Option.or_none, isOuter_iff]
  constructor
  · rintro ⟨before, -, ⟨rfl, misses, -, outer, first, found, rest, rfl, same, last⟩, rfl, rfl⟩
    rw [List.drop_left' (Text.length_eq_of_sameWord same)]
    use found
  · rintro ⟨found, rfl, same, misses, outer, first, last⟩
    use before, found ++ rest
    refine ⟨⟨rfl, misses, ?_, outer, first, found, rest, rfl, same, last⟩, rfl, ?_⟩
    · simp [(hw.of_sameWord same).ne_nil]
    · rw [List.drop_left' (Text.length_eq_of_sameWord same)]

/-- A text is not split at a word exactly if it misses the word. -/
theorem splitWord?_eq_none_iff :
  splitWord? word t = none ↔ Misses (isWordAt word) outer none t []
  := by
  rw [splitWord?, Option.map_eq_none_iff, splitWhere_eq_none_iff]

/-- A text is not split at a word exactly if it lacks the word. -/
theorem splitWord?_eq_none_iff_lacksWord (hw : IsWord word) :
  splitWord? word t = none ↔ LacksWord word t
  := by
  rw [splitWord?_eq_none_iff, lacksWord_iff hw]

/-- A search goes on behind a part that lacks the word, if no word runs from this part into
the rest. -/
theorem splitWord?_append (hw : IsWord word) (lacks : LacksWord word s)
    (ends : outer.after s = outer) (apart : Apart s t) :
  splitWord? word (s ++ t) = (splitWord? word t).map fun (before, rest) => (s ++ before, rest)
  := by
  have start : splitWhere (isWordAt word) outer (behind none s) t =
      splitWhere (isWordAt word) outer none t := by
    cases t with
    | nil => rfl
    | cons c t =>
      have here : isWordAt word (behind none s) (c :: t) = isWordAt word none (c :: t) := by
        by_cases head : isWordChar c
        · apply isWordAt_congr
          have last : ¬s.getLast?.any isWordChar := fun last => apart ⟨last, head⟩
          simpa [behind_eq] using last
        · have absent : ∀ prev, isWordAt word prev (c :: t) = false := by
            intro prev
            simpa using not_isWordAt_of_head hw (t := c :: t) (by simpa using head)
          rw [absent, absent]
      rw [splitWhere, splitWhere, here]
  have misses := (misses_isWordAt_append hw apart).2 ((lacksWord_iff hw).1 lacks)
  rw [splitWord?, splitWord?, splitWhere_append_of_misses misses, ends, start]
  cases splitWhere (isWordAt word) outer none t <;> rfl

/-- Blanks around a text do not matter to whether it misses a word. -/
theorem misses_isWordAt_trim (hw : IsWord word) :
  Misses (isWordAt word) outer none t [] ↔ Misses (isWordAt word) outer none t.trim []
  := by
  obtain ⟨a, b, ha, hb, split⟩ := t.exists_blanks_trim
  have blank : ∀ {n prev r} {s : Text}, (∀ c ∈ s, isBlank c) →
      Misses (isWordAt word) n prev s r :=
    fun hs => misses_isWordAt_of_not_isWordChar hw fun c hc => not_isWordChar_of_isBlank (hs c hc)
  have inner : Misses (isWordAt word) outer (behind none a) t.trim (b ++ []) ↔
      Misses (isWordAt word) outer none t.trim [] := by
    rw [List.append_nil, misses_isWordAt_append hw (apart_of_head (not_head_isWordChar hb))]
    apply misses_isWordAt_congr hw
    left
    rw [behind_eq, Option.or_none]
    simpa using not_last_isWordChar ha
  conv_lhs => rw [← split]
  rw [List.append_assoc, misses_append, misses_append, after_of_isBlank ha, inner]
  simp [blank ha, blank hb]

/-! ### The word at the start -/

/-- The word with which a text begins is the first longest run of word characters, and
only blanks stand before it. -/
theorem nextWord?_eq_some_iff :
  nextWord? t = some (w, r) ↔
    IsWord w ∧ ¬r.head?.any isWordChar ∧ ∃ b : Text, (∀ c ∈ b, isBlank c) ∧ t = b ++ (w ++ r)
  := by
  constructor
  · intro h
    rw [nextWord?] at h
    split at h
    · simp at h
    · next ne =>
      simp only [Option.some.injEq, Prod.mk.injEq] at h
      obtain ⟨rfl, rfl⟩ := h
      refine ⟨⟨ne, fun c hc => List.mem_takeWhile_imp hc⟩, ?_, t.takeWhile isBlank, ?_, ?_⟩
      · intro h
        rw [Option.any_eq_true] at h
        obtain ⟨c, hc, word⟩ := h
        have := List.head?_dropWhile_not isWordChar t.trimStart
        rw [hc] at this
        simp [word] at this
      · intro c hc
        apply List.mem_takeWhile_imp hc
      · rw [List.takeWhile_append_dropWhile, Text.takeWhile_append_trimStart]
  · rintro ⟨hw, hr, b, hb, rfl⟩
    have start : Text.trimStart (b ++ (w ++ r)) = w ++ r := by
      rw [Text.trimStart_append hb, hw.trimStart_append]
    rw [nextWord?, start, takeWhile_isWordChar_append hw.forall_mem hr,
      dropWhile_isWordChar_append hw.forall_mem hr]
    cases w with
    | nil => apply absurd rfl hw.ne_nil
    | cons c w => rfl

/-- No word begins behind blanks where something else does. -/
theorem nextWord?_eq_none (hs : ∀ c ∈ s, isBlank c) (hc : ¬isWordChar c) (hb : ¬isBlank c) :
  nextWord? (s ++ c :: t) = none
  := by
  have start : Text.trimStart (s ++ c :: t) = c :: t := by
    rw [Text.trimStart_append hs, Text.trimStart_cons hb]
  rw [nextWord?, start, List.takeWhile_cons_of_neg hc]

/-- A text is stripped of a word with which it begins, in any case, and of the blanks behind it. -/
theorem stripWord?_eq_some_iff :
  stripWord? word t = some s ↔
    ∃ found r, nextWord? t = some (found, r) ∧ found.sameWord word ∧ s = r.trimStart
  := by
  rw [stripWord?]
  cases nextWord? t with
  | none => simp
  | some parts =>
    obtain ⟨found, r⟩ := parts
    simp [eq_comm (a := s)]

/-- A text that begins with another word is not stripped of a word. -/
theorem stripWord?_eq_none (h : nextWord? t = some (w, r)) (hw : ¬w.sameWord word) :
  stripWord? word t = none
  := by
  simp [stripWord?, h, hw]

end Testbench.Vhdl
