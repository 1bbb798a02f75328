import Testbench.Proofs.Nesting.Word
import Testbench.Vhdl.Range

/-!
# Ranges as they are written

A bound that is read has a text that reads as the same bound again, and so has a range:
the texts of its bounds hold no direction keyword that could be taken for the one between
them, which makes it `IsDirected`.
-/

namespace Testbench.Vhdl

open Nesting

variable {word s r t L R found : Text} {prev : Option Char} {n : Nesting} {d : Direction}

/-- A text in which no character can begin a word misses the word. -/
theorem misses_isWordAt_of_forall {w : Char} (hw : word.head? = some w) (lower : w.toLower = w)
    (hs : ∀ c ∈ s, c.toLower ≠ w) :
  Misses (isWordAt word) n prev s r
  := by
  induction s generalizing n prev with
  | nil => trivial
  | cons c s ih =>
    constructor
    · rintro ⟨-, at_⟩
      obtain ⟨-, found, rest, eq, same, -⟩ := isWordAt_iff.1 at_
      rw [Text.sameWord_iff] at same
      cases word with
      | nil => simp at hw
      | cons w' word =>
        obtain rfl : w' = w := by simpa using hw
        cases found with
        | nil => simp [Text.lower] at same
        | cons c' found =>
          obtain ⟨rfl, -⟩ := List.cons.inj eq
          apply hs c List.mem_cons_self
          rw [← lower]
          apply (List.cons.inj same).1
    · apply ih
      intro c' hc'
      apply hs c' (List.mem_cons_of_mem c hc')

theorem isPlain_of_isDigit {c : Char} (hc : c.isDigit) :
  IsPlain c
  := by
  apply isPlain_of_isWordChar
  simp [isWordChar, isDigit, hc]

/-! ### Bounds -/

namespace Bound

/-- The digits of a number are their own trim. -/
theorem trim_ofNat (n : Nat) :
  (Text.ofNat n).trim = Text.ofNat n
  := by
  have digit : ∀ c ∈ Text.ofNat n, ¬isBlank c := by
    intro c hc blank
    apply not_isWordChar_of_isBlank blank
    simp [isWordChar, isDigit, Text.isDigit_of_mem_ofNat hc]
  rw [Text.trim_eq_self_iff]
  constructor
  · intro c hc
    apply digit c (List.mem_of_mem_head? hc)
  · intro c hc
    apply digit c (List.mem_of_getLast? hc)

/-- A text reads as a number only if it consists of digits, and the number is below the
limit. -/
theorem of_decimal?_eq_some {limit m : Nat} (h : t.decimal? limit = some m) :
  m < limit ∧ t ≠ [] ∧ ∀ c ∈ t, c.isDigit
  := by
  rw [Text.decimal?] at h
  split at h
  · next digits =>
    simp only [Option.ite_none_right_eq_some, Option.some.injEq] at h
    obtain ⟨bound, rfl⟩ := h
    use bound, digits.1
    simpa using digits.2
  · simp at h

/-- The bound of a text does not depend on blanks around the text. -/
@[simp]
theorem ofText_trim (t : Text) :
  ofText t.trim = ofText t
  := by
  rw [ofText, ofText, Text.trim_trim]

/-- The text of a bound reads as the bound. -/
@[simp]
theorem ofText_text_ofText (t : Text) :
  ofText (ofText t).text = ofText t
  := by
  conv_rhs => rw [ofText]
  rw [ofText.eq_def t]
  split
  · next n h =>
    rw [text, ofText, trim_ofNat, Text.decimal?_ofNat (of_decimal?_eq_some h).1]
  · next h => rw [text, ofText, Text.trim_trim, h]

/-- A bound is written as the trim of the text from which it is read, or in digits. -/
theorem text_ofText (t : Text) :
  (ofText t).text = t.trim ∨
    (∀ c ∈ (ofText t).text, c.isDigit) ∧ ∀ c ∈ t.trim, c.isDigit
  := by
  rw [ofText]
  split
  · next n h =>
    right
    use fun c hc => Text.isDigit_of_mem_ofNat hc
    apply (of_decimal?_eq_some h).2.2
  · left
    rfl

/-- The text of a bound is trimmed. -/
@[simp]
theorem trim_text_ofText (t : Text) :
  (ofText t).text.trim = (ofText t).text
  := by
  rw [ofText]
  split
  · apply trim_ofNat
  · apply Text.trim_trim

/-- The text of a bound is empty only if there is nothing to read. -/
theorem text_ofText_ne_nil (h : t.trim ≠ []) :
  (ofText t).text ≠ []
  := by
  rw [ofText]
  split
  · apply Text.ofNat_ne_nil
  · apply h

/-- A bound that is a number is written in digits. -/
theorem digits_of_ofText_eq_int {n : Nat} (h : ofText t = .int n) :
  (∀ c ∈ t.trim, c.isDigit) ∧ t.trim ≠ []
  := by
  rw [ofText] at h
  split at h
  · next read =>
    obtain ⟨-, ne, digits⟩ := of_decimal?_eq_some read
    use digits, ne
  · simp at h

end Bound

/-! ### Ranges -/

namespace Direction

theorem isWord_name (d : Direction) :
  IsWord d.name
  := by
  cases d
  · use by decide, by decide
  · use by decide, by decide

/-- No direction stands in digits. -/
theorem misses_of_isDigit (d : Direction) (hs : ∀ c ∈ s, c.isDigit) :
  Misses (isWordAt d.name) n prev s r
  := by
  have letter : ∀ w : Char, w.isDigit = false → ∀ c ∈ s, c.toLower ≠ w := by
    rintro w hw c hc rfl
    rw [isDigit_toLower, hs c hc] at hw
    contradiction
  cases d with
  | down => apply misses_isWordAt_of_forall (w := 'd') rfl rfl (letter 'd' rfl)
  | up => apply misses_isWordAt_of_forall (w := 't') rfl rfl (letter 't' rfl)

end Direction

namespace Range

theorem ofDirection?_eq (hw : splitWord? d.name t = some (L, R)) (hL : L.trim ≠ [])
    (hR : R.trim ≠ []) :
  ofDirection? t d = some (.ok ⟨.ofText L, .ofText R, d⟩)
  := by
  simp [ofDirection?, hw, hL, hR]

/-- A text is split at the direction between a left bound that does not hold its keyword and a
right bound. -/
theorem splitWord?_direction (outside : outer.after L = outer) (same : found.sameWord d.name)
    (hd : Misses (isWordAt d.name) outer none L []) :
  splitWord? d.name (L ++ ' ' :: (found ++ ' ' :: R)) = some (L ++ [' '], ' ' :: R)
  := by
  have space : ¬isWordChar ' ' := by decide
  have word := d.isWord_name
  have outside' : outer.after (L ++ [' ']) = outer := by
    rw [after_append, outside]
    rfl
  have misses : Misses (isWordAt d.name) outer none (L ++ [' ']) (found ++ ' ' :: R) := by
    rw [misses_append, misses_isWordAt_cons word space]
    use (misses_isWordAt_append word (apart_cons space)).2 hd
    trivial
  rw [splitWord?_eq_some_iff word]
  refine ⟨found, by simp, same, misses, outside', ?_, space⟩
  simpa using space

/-- No `downto` stands in a range whose direction is `to` if none stands in its bounds. -/
theorem splitWord?_down_eq_none (outside : outer.after L = outer)
    (same : found.sameWord Direction.up.name)
    (missesLeft : Misses (isWordAt Direction.down.name) outer none L [])
    (missesRight : Misses (isWordAt Direction.down.name) outer none R []) :
  splitWord? Direction.down.name (L ++ ' ' :: (found ++ ' ' :: R)) = none
  := by
  have space : ¬isWordChar ' ' := by decide
  have down := Direction.down.isWord_name
  have isWord := Direction.up.isWord_name.of_sameWord same
  have absent : 'd' ∉ Direction.up.name.lower := by decide
  have passed : ∀ c ∈ found, c.toLower ≠ 'd' := by
    intro c hc eq
    apply absent
    rw [← Text.sameWord_iff.1 same, ← eq]
    apply List.mem_map_of_mem hc
  rw [splitWord?_eq_none_iff, misses_append, misses_isWordAt_cons down space, misses_append,
    misses_isWordAt_cons down space, outside]
  refine ⟨(misses_isWordAt_append down (apart_cons space)).2 missesLeft, ?_, ?_⟩
  · apply misses_isWordAt_of_forall (w := 'd') rfl rfl passed
  · rw [after_of_isPlain fun c hc => isPlain_of_isWordChar (isWord.forall_mem c hc)]
    apply (misses_isWordAt_congr down (Or.inl _)).1 missesRight
    decide

/-- The text of a left bound, a direction and a right bound reads as the range if the left
bound does not hold the keyword of the direction, and neither bound the keyword that is
looked for first. -/
theorem ofText_append (hL : L.trim = L) (L_ne : L ≠ []) (outside : outer.after L = outer)
    (hR : R.trim = R) (R_ne : R ≠ []) (same : found.sameWord d.name)
    (hd : Misses (isWordAt d.name) outer none L [])
    (hdown : d = .up → Misses (isWordAt Direction.down.name) outer none L [] ∧
      Misses (isWordAt Direction.down.name) outer none R []) :
  ofText (L ++ ' ' :: (found ++ ' ' :: R)) = .ok ⟨.ofText L, .ofText R, d⟩
  := by
  have reads : ofDirection? (L ++ ' ' :: (found ++ ' ' :: R)) d =
      some (.ok ⟨.ofText L, .ofText R, d⟩) := by
    have blank : ∀ c ∈ [' '], isBlank c := by decide
    have left : (L ++ [' ']).trim = L := by rw [Text.trim_append_right blank, hL]
    have right : Text.trim (' ' :: R) = R := by
      rw [← List.singleton_append, Text.trim_append_left blank, hR]
    rw [ofDirection?_eq (splitWord?_direction outside same hd) (by rwa [left]) (by rwa [right]),
      ← Bound.ofText_trim (L ++ [' ']), left, ← Bound.ofText_trim (' ' :: R), right]
  have trimmed := Text.trim_append_append hL L_ne hR R_ne (' ' :: (found ++ [' ']))
  simp only [List.cons_append, List.append_assoc, List.nil_append] at trimmed
  rw [ofText, trimmed, if_neg (by simp [L_ne])]
  cases d with
  | down => rw [reads]
  | up =>
    obtain ⟨missesLeft, missesRight⟩ := hdown rfl
    have none : ofDirection? (L ++ ' ' :: (found ++ ' ' :: R)) .down = none := by
      simp [ofDirection?, splitWord?_down_eq_none outside same missesLeft missesRight]
    rw [none, reads]

/-- A range that is read with a direction has it, and its bounds are read around its keyword. -/
theorem of_ofDirection?_eq_some {range : Range} (h : ofDirection? t d = some (.ok range)) :
  range.direction = d ∧ ∃ l m, splitWord? d.name t = some (l, m) ∧ l.trim ≠ [] ∧ m.trim ≠ [] ∧
    range.left = .ofText l ∧ range.right = .ofText m
  := by
  simp only [ofDirection?, Option.bind_eq_bind, Option.bind_eq_some_iff, Prod.exists] at h
  obtain ⟨l, m, found, h⟩ := h
  split at h
  · simp at h
  · next nonempty =>
    simp only [Bool.or_eq_true, decide_eq_true_eq, not_or] at nonempty
    simp only [Option.some.injEq, Except.ok.injEq] at h
    obtain rfl := h
    use rfl, l, m, found, nonempty.1, nonempty.2

/-- A text that is not read with a direction does not hold its keyword. -/
theorem splitWord?_eq_none_of_ofDirection? (h : ofDirection? t d = none) :
  splitWord? d.name t = none
  := by
  cases search : splitWord? d.name t with
  | none => rfl
  | some parts =>
    simp only [ofDirection?, search, Option.bind_eq_bind, Option.bind_some] at h
    split at h <;> simp at h

/-- A range that is read as a pair has two bounds in digits. -/
theorem of_ofPair?_eq_some {range : Range} (h : ofPair? t = some range) :
  ∃ l m : Text, range.left = .ofText l ∧ range.right = .ofText m ∧
    (∀ c ∈ l.trim, c.isDigit) ∧ l.trim ≠ [] ∧ (∀ c ∈ m.trim, c.isDigit) ∧ m.trim ≠ []
  := by
  rw [ofPair?] at h
  split at h
  · next l m numbers =>
    obtain rfl := Option.some.inj h
    obtain ⟨first, rest, pieces, isFirst, isRest⟩ := List.map_eq_cons_iff.1 numbers
    obtain ⟨second, rest, pieces', isSecond, -⟩ := List.map_eq_cons_iff.1 isRest
    obtain ⟨digitsFirst, firstNe⟩ := Bound.digits_of_ofText_eq_int isFirst
    obtain ⟨digitsSecond, secondNe⟩ := Bound.digits_of_ofText_eq_int isSecond
    use first, second, isFirst.symm, isSecond.symm, digitsFirst, firstNe, digitsSecond, secondNe
  · simp at h

/-- A range is read from two bounds around a direction, the one that is looked for first
if its keyword is there, or from two numbers. -/
theorem of_ofText_eq_ok {range : Range} (h : ofText t = .ok range) :
  (∃ l m, splitWord? range.direction.name t.trim = some (l, m) ∧ l.trim ≠ [] ∧ m.trim ≠ [] ∧
      range.left = .ofText l ∧ range.right = .ofText m ∧
      (range.direction = .up → splitWord? Direction.down.name t.trim = none)) ∨
    ∃ l m : Text, range.left = .ofText l ∧ range.right = .ofText m ∧
      (∀ c ∈ l.trim, c.isDigit) ∧ l.trim ≠ [] ∧ (∀ c ∈ m.trim, c.isDigit) ∧ m.trim ≠ []
  := by
  rw [ofText] at h
  split at h
  · simp at h
  · cases down : ofDirection? t.trim .down with
    | some result =>
      simp only [down] at h
      obtain rfl := h
      obtain ⟨same, l, m, found, hl, hm, left, right⟩ := of_ofDirection?_eq_some down
      left
      use l, m, by rwa [same], hl, hm, left, right
      intro up
      simp [same] at up
    | none =>
      cases up : ofDirection? t.trim .up with
      | some result =>
        simp only [down, up] at h
        obtain rfl := h
        obtain ⟨same, l, m, found, hl, hm, left, right⟩ := of_ofDirection?_eq_some up
        left
        use l, m, by rwa [same], hl, hm, left, right
        intro _
        apply splitWord?_eq_none_of_ofDirection? down
      | none =>
        simp only [down, up] at h
        cases pair : ofPair? t.trim with
        | none => simp [pair] at h
        | some result =>
          simp only [pair, Except.ok.injEq] at h
          obtain rfl := h
          right
          apply of_ofPair?_eq_some pair

/-- The text of a bound misses a direction if the text from which the bound is read
misses it. -/
theorem misses_text_ofText (h : Misses (isWordAt d.name) outer none t []) :
  Misses (isWordAt d.name) outer none (Bound.ofText t).text []
  := by
  rcases Bound.text_ofText t with eq | ⟨digits, -⟩
  · rw [eq]
    apply (misses_isWordAt_trim d.isWord_name).1 h
  · apply d.misses_of_isDigit digits

/-- The text of a bound leaves a reader at the outer level if the text from which the bound
is read does. -/
theorem after_text_ofText (h : outer.after t = outer) :
  outer.after (Bound.ofText t).text = outer
  := by
  rcases Bound.text_ofText t with eq | ⟨digits, -⟩
  · rw [eq, after_trim, h]
  · apply after_of_isPlain fun c hc => isPlain_of_isDigit (digits c hc)

/-- A range is directed when its direction is the one that is found in its text: the left
bound does not hold the keyword of the direction, and neither bound the keyword that is
looked for first. -/
structure IsDirected (range : Range) : Prop where
  after : outer.after range.left.text = outer
  lacks : LacksWord range.direction.name range.left.text
  lacks_down : range.direction = .up →
    LacksWord Direction.down.name range.left.text ∧ LacksWord Direction.down.name range.right.text

theorem lacksWord_text_ofText (h : Misses (isWordAt d.name) outer none t []) :
  LacksWord d.name (Bound.ofText t).text
  := (lacksWord_iff d.isWord_name).2 (misses_text_ofText h)

/-- A bound that is read from digits leaves a reader at the outer level and lacks directions. -/
theorem of_isDigit_trim (h : ∀ c ∈ t.trim, c.isDigit) (d : Direction) :
  outer.after (Bound.ofText t).text = outer ∧ LacksWord d.name (Bound.ofText t).text
  := by
  rw [← Bound.ofText_trim]
  constructor
  · apply after_text_ofText
    apply after_of_isPlain fun c hc => isPlain_of_isDigit (h c hc)
  · apply lacksWord_text_ofText
    apply d.misses_of_isDigit h

/-- A range that is split at its direction is directed, unless the direction that is looked for
first is another one and stands in its text. -/
theorem isDirected_of_splitWord? {range : Range} {l m : Text} (left : range.left = .ofText l)
    (right : range.right = .ofText m) (split : splitWord? range.direction.name t = some (l, m))
    (other : range.direction = .up → splitWord? Direction.down.name t = none) :
  range.IsDirected
  := by
  have word := range.direction.isWord_name
  obtain ⟨keyword, parts, same, misses, ends, last, head⟩ := (splitWord?_eq_some_iff word).1 split
  have misses_l : ∀ {d : Direction}, Misses (isWordAt d.name) outer none l (keyword ++ m) →
      Misses (isWordAt d.name) outer none l [] :=
    fun {d} => (misses_isWordAt_append d.isWord_name (apart_of_last last)).1
  constructor
  · rw [left]
    apply after_text_ofText ends
  · rw [left]
    apply lacksWord_text_ofText (misses_l misses)
  · intro up
    have down := Direction.down.isWord_name
    have plain : ∀ c ∈ keyword, IsPlain c :=
      fun c hc => isPlain_of_isWordChar ((word.of_sameWord same).forall_mem c hc)
    have absent := splitWord?_eq_none_iff.1 (other up)
    rw [parts, misses_append, misses_append, ends, after_of_isPlain plain,
      List.append_nil] at absent
    obtain ⟨before, -, rest⟩ := absent
    rw [left, right]
    use lacksWord_text_ofText (misses_l before)
    apply lacksWord_text_ofText
    apply (misses_isWordAt_congr down (Or.inr head)).1 rest

/-- A range that is read is directed. -/
theorem isDirected_of_ofText {range : Range} (h : ofText t = .ok range) :
  range.IsDirected
  := by
  rcases of_ofText_eq_ok h with
    ⟨l, m, split, -, -, left, right, other⟩ | ⟨l, m, left, right, hl, -, hm, -⟩
  · apply isDirected_of_splitWord? left right split other
  · constructor
    · rw [left]
      apply (of_isDigit_trim hl .up).1
    · rw [left]
      apply (of_isDigit_trim hl _).2
    · intro _
      rw [left, right]
      use (of_isDigit_trim hl _).2, (of_isDigit_trim hm _).2

/-- The parts of a text around a direction stand in it and are balanced if the text is. -/
theorem of_splitWord?_direction (h : splitWord? d.name t = some (L, R)) :
  (Balanced t → Balanced L ∧ Balanced R) ∧ L <:+: t ∧ R <:+: t
  := by
  have word := d.isWord_name
  obtain ⟨keyword, rfl, same, -, ends, -⟩ := (splitWord?_eq_some_iff word).1 h
  refine ⟨?_, (List.prefix_append _ _).isInfix, ?_⟩
  · intro ht
    have plain : ∀ c ∈ keyword, IsPlain c :=
      fun c hc => isPlain_of_isWordChar ((word.of_sameWord same).forall_mem c hc)
    obtain ⟨before, rest⟩ := ht.of_append ends
    apply And.intro before (rest.of_isPlain_append plain)
  · rw [← List.append_assoc]
    apply (List.suffix_append _ _).isInfix

/-- A bound that is read from a part of a text, or from digits, is written as a part of the text or
in digits. -/
theorem written_of_part (balanced : Balanced t → Balanced s)
    (part : s.trim <:+: t ∨ ∀ c ∈ s.trim, c.isDigit) :
  (Balanced t → Balanced (Bound.ofText s).text) ∧
    ((Bound.ofText s).text <:+: t ∨ ∀ c ∈ (Bound.ofText s).text, c.isDigit)
  := by
  rcases Bound.text_ofText s with eq | ⟨digits, -⟩
  · rw [eq]
    use fun ht => (balanced ht).trim, part
  · use fun _ => Balanced.of_isPlain fun c hc => isPlain_of_isDigit (digits c hc), Or.inr digits

theorem written_of_isDigit (h : ∀ c ∈ s.trim, c.isDigit) :
  (Balanced t → Balanced (Bound.ofText s).text) ∧
    ((Bound.ofText s).text <:+: t ∨ ∀ c ∈ (Bound.ofText s).text, c.isDigit)
  := by
  rw [← Bound.ofText_trim]
  apply written_of_part
  · intro _
    apply Balanced.of_isPlain fun c hc => isPlain_of_isDigit (h c hc)
  · right
    rwa [Text.trim_trim]

/-- A bound of a range that is read is the bound of some text, and it is written as a part
of the text of the range or in digits. -/
theorem bound_of_ofText {range : Range} {b : Bound} (h : ofText t = .ok range)
    (hb : b = range.left ∨ b = range.right) :
  (∃ l : Text, b = .ofText l ∧ l.trim ≠ []) ∧ (Balanced t → Balanced b.text) ∧
    (b.text <:+: t ∨ ∀ c ∈ b.text, c.isDigit)
  := by
  rcases of_ofText_eq_ok h with
    ⟨l, m, split, hl, hm, left, right, -⟩ | ⟨l, m, left, right, hl, hl', hm, hm'⟩
  · obtain ⟨balanced, part, part'⟩ := of_splitWord?_direction split
    have inside := Text.isInfix_trim t
    rcases hb with rfl | rfl
    · use ⟨l, left, hl⟩
      rw [left]
      apply written_of_part (fun ht => (balanced ht.trim).1)
      apply Or.inl (((Text.isInfix_trim l).trans part).trans inside)
    · use ⟨m, right, hm⟩
      rw [right]
      apply written_of_part (fun ht => (balanced ht.trim).2)
      apply Or.inl (((Text.isInfix_trim m).trans part').trans inside)
  · rcases hb with rfl | rfl
    · use ⟨l, left, hl'⟩
      rw [left]
      apply written_of_isDigit hl
    · use ⟨m, right, hm'⟩
      rw [right]
      apply written_of_isDigit hm

/-- A range is written as its bounds around the keyword of its direction. -/
theorem text_eq (range : Range) :
  range.text = range.left.text ++ ' ' :: (range.direction.name ++ ' ' :: range.right.text)
  := by
  simp [text]

/-- The text of a directed range reads as the range if the bounds are read from texts. -/
theorem ofText_text_of_isDirected {range : Range} (directed : range.IsDirected)
    (hl : ∃ l : Text, range.left = .ofText l ∧ l.trim ≠ [])
    (hr : ∃ m : Text, range.right = .ofText m ∧ m.trim ≠ []) :
  ofText range.text = .ok range
  := by
  obtain ⟨l, left, hl⟩ := hl
  obtain ⟨m, right, hm⟩ := hr
  obtain ⟨ends, lacks, down⟩ := directed
  rw [left] at ends lacks
  rw [left, right] at down
  rw [text_eq, left, right, ofText_append (Bound.trim_text_ofText l) (Bound.text_ofText_ne_nil hl)
    ends (Bound.trim_text_ofText m) (Bound.text_ofText_ne_nil hm) (Text.sameWord_self _)
    ((lacksWord_iff range.direction.isWord_name).1 lacks)]
  · rw [Bound.ofText_text_ofText, Bound.ofText_text_ofText, ← left, ← right]
  · intro up
    have word := Direction.down.isWord_name
    use (lacksWord_iff word).1 (down up).1, (lacksWord_iff word).1 (down up).2

/-- The text of a range that is read reads as the range again. -/
theorem ofText_text {range : Range} (h : ofText t = .ok range) :
  ofText range.text = .ok range
  := ofText_text_of_isDirected (isDirected_of_ofText h) (bound_of_ofText h (Or.inl rfl)).1
    (bound_of_ofText h (Or.inr rfl)).1

/-! ### Two bounds around a direction -/

/-- A text can be written as a bound when it is trimmed, not empty and balanced. -/
structure IsBoundText (t : Text) : Prop where
  ne_nil : t ≠ []
  trim : t.trim = t
  balanced : Balanced t

/-- The bound of a text lacks a direction exactly if the text does. -/
theorem IsBoundText.lacksWord_iff (ht : IsBoundText t) :
  LacksWord d.name (Bound.ofText t).text ↔ LacksWord d.name t
  := by
  rcases Bound.text_ofText t with eq | ⟨digits, digits'⟩
  · rw [eq, ht.trim]
  · rw [ht.trim] at digits'
    have lacks : ∀ {s : Text}, (∀ c ∈ s, c.isDigit) → LacksWord d.name s :=
      fun hs => (Vhdl.lacksWord_iff d.isWord_name).2 (d.misses_of_isDigit hs)
    apply iff_of_true (lacks digits) (lacks digits')

/-- A direction between two bounds is found there exactly if its keyword is not found before, and
neither is the one that is looked for first. -/
theorem ofText_append_iff (hL : IsBoundText L) (hR : IsBoundText R) (same : found.sameWord d.name) :
  ofText (L ++ ' ' :: (found ++ ' ' :: R)) = .ok ⟨.ofText L, .ofText R, d⟩ ↔
    LacksWord d.name L ∧
      (d = .up → LacksWord Direction.down.name L ∧ LacksWord Direction.down.name R)
  := by
  constructor
  · intro h
    obtain ⟨-, lacks, down⟩ := isDirected_of_ofText h
    use hL.lacksWord_iff.1 lacks
    intro up
    use hL.lacksWord_iff.1 (down up).1, hR.lacksWord_iff.1 (down up).2
  · rintro ⟨lacks, down⟩
    have misses : ∀ {d : Direction} {s : Text}, LacksWord d.name s →
        Misses (isWordAt d.name) outer none s [] :=
      fun {d _} hs => (lacksWord_iff d.isWord_name).1 hs
    apply ofText_append hL.trim hL.ne_nil hL.balanced.after hR.trim hR.ne_nil same (misses lacks)
    intro up
    use misses (down up).1, misses (down up).2

/-- A range that is read survives being written.  Two bounds around the keyword of a direction, in
any case, are read as the range of the two with this direction exactly if the left one lacks the
keyword and, as `downto` is looked for before `to`, no bound of a range with `to` holds `downto`. -/
theorem survives_writing :
  (∀ (t : Text) (range : Range), ofText t = .ok range → ofText range.text = .ok range) ∧
    ∀ (L R keyword : Text) (d : Direction), IsBoundText L → IsBoundText R →
      keyword.sameWord d.name →
      (ofText (L ++ [' '] ++ keyword ++ [' '] ++ R) = .ok ⟨.ofText L, .ofText R, d⟩ ↔
        LacksWord d.name L ∧
          (d = .up → LacksWord Direction.down.name L ∧ LacksWord Direction.down.name R))
  := by
  constructor
  · intro t range
    apply ofText_text
  · intro L R keyword d hL hR same
    rw [← ofText_append_iff hL hR same]
    simp only [List.append_assoc, List.cons_append, List.nil_append]

/-- A pair of numbers is written with a direction, and bounds may hold the directions in longer
words, in parentheses and in strings. -/
theorem survives_writing_bounds :
  (ofText " 007 ,18" = .ok ⟨.int 7, .int 18, .up⟩ ∧
    ofText (Range.text ⟨.int 7, .int 18, .up⟩) = .ok ⟨.int 7, .int 18, .up⟩) ∧
    ofText "to_s(\" to \") tO last(7 downto 0)" =
      .ok ⟨.expr "to_s(\" to \")", .expr "last(7 downto 0)", .up⟩
  := by
  have read : ofText " 007 ,18" = .ok ⟨.int 7, .int 18, .up⟩ := by decide
  have left : IsBoundText "to_s(\" to \")" := ⟨by decide, by decide, by decide⟩
  have right : IsBoundText "last(7 downto 0)" := ⟨by decide, by decide, by decide⟩
  have lacks : ∀ {d : Direction} {s : Text}, splitWord? d.name s = none → LacksWord d.name s :=
    fun {d _} => (splitWord?_eq_none_iff_lacksWord d.isWord_name).1
  use ⟨read, survives_writing.1 _ _ read⟩
  have both := (survives_writing.2 _ _ "tO" .up left right (by decide)).2
    ⟨lacks (by decide), fun _ => ⟨lacks (by decide), lacks (by decide)⟩⟩
  exact both

end Range

end Testbench.Vhdl
