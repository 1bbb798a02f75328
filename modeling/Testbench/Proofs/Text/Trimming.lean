import Testbench.Text.Blank
import Mathlib.Data.List.DropRight

/-!
# Trimming

A text is the blanks that `trim` removes around what it leaves, and what it leaves begins
and ends with no blank.  So blanks at the ends of a text do not matter to `trim`, and a
text that begins and ends with no blank is its own trim.
-/

namespace Testbench

namespace Text

variable {a b s t : Text}

/-! ### What is removed -/

/-- A text is the blanks at its start, its trim, and the blanks at its end. -/
theorem exists_blanks_trim (t : Text) :
  ∃ a b : Text, (∀ c ∈ a, isBlank c) ∧ (∀ c ∈ b, isBlank c) ∧ a ++ t.trim ++ b = t
  := by
  use t.takeWhile isBlank, t.trimStart.rtakeWhile isBlank
  constructor
  · intro c hc
    apply List.mem_takeWhile_imp hc
  · constructor
    · intro c hc
      apply List.mem_rtakeWhile_imp hc
    · rw [List.append_assoc]
      apply Eq.trans _ t.takeWhile_append_trimStart
      congr 1
      apply List.rdropWhile_append_rtakeWhile

/-- The trim of a text is a part of it. -/
theorem isInfix_trim (t : Text) :
  t.trim <:+: t
  := by
  apply List.IsInfix.trans (List.rdropWhile_prefix isBlank _).isInfix
  apply (List.dropWhile_suffix isBlank).isInfix

/-- Blanks before a text are removed from its start. -/
theorem trimStart_append (ha : ∀ c ∈ a, isBlank c) :
  (a ++ t).trimStart = t.trimStart
  := List.dropWhile_append_of_pos ha

/-- Nothing is removed before a character that is no blank. -/
theorem trimStart_cons {c : Char} (hc : ¬isBlank c) :
  trimStart (c :: t) = c :: t
  := List.dropWhile_cons_of_neg hc

/-- Nothing is removed from the start of a text that begins with no blank. -/
theorem trimStart_eq_self (h : ∀ c ∈ t.head?, ¬isBlank c) :
  t.trimStart = t
  := by
  cases t with
  | nil => rfl
  | cons c t => apply trimStart_cons (h c rfl)

/-- Blanks before a text do not change its trim. -/
theorem trim_append_left (ha : ∀ c ∈ a, isBlank c) :
  (a ++ t).trim = t.trim
  := by
  rw [trim, trimStart_append ha]
  rfl

/-- Without the blanks at its start a text has the trim of the text. -/
theorem trim_trimStart (t : Text) :
  t.trimStart.trim = t.trim
  := by
  conv_rhs => rw [← t.takeWhile_append_trimStart]
  rw [trim_append_left fun c hc => List.mem_takeWhile_imp hc]

/-- Blanks behind a text do not change its trim. -/
theorem trim_append_right (hb : ∀ c ∈ b, isBlank c) :
  (t ++ b).trim = t.trim
  := by
  have end_ : ∀ s : Text, trimEnd (s ++ b) = trimEnd s := by
    intro s
    rw [trimEnd, List.reverse_append, List.dropWhile_append_of_pos (by simpa using hb)]
    rfl
  rw [trim, trimStart, List.dropWhile_append]
  split
  · next h =>
    rw [List.isEmpty_iff] at h
    rw [trim, trimStart, h, List.dropWhile_eq_nil_iff.2 hb]
  · rw [end_]
    rfl

/-- Blanks around a text do not change its trim. -/
theorem trim_append_blanks (ha : ∀ c ∈ a, isBlank c) (hb : ∀ c ∈ b, isBlank c) :
  (a ++ t ++ b).trim = t.trim
  := by
  rw [trim_append_right hb, trim_append_left ha]

/-- Nothing is left of a text exactly if it is blank. -/
theorem trim_eq_nil_iff :
  t.trim = [] ↔ ∀ c ∈ t, isBlank c
  := by
  constructor
  · intro h
    obtain ⟨a, b, ha, hb, eq⟩ := exists_blanks_trim t
    rw [h, List.append_nil] at eq
    rw [← eq]
    intro c hc
    rcases List.mem_append.1 hc with hc | hc
    · apply ha c hc
    · apply hb c hc
  · intro h
    rw [← List.append_nil t, trim_append_left h, trim_nil]

/-! ### What is left -/

/-- A text is its own trim exactly if it neither begins nor ends with a blank. -/
theorem trim_eq_self_iff :
  t.trim = t ↔ (∀ c ∈ t.head?, ¬isBlank c) ∧ (∀ c ∈ t.getLast?, ¬isBlank c)
  := by
  obtain ⟨a, b, ha, hb, split⟩ := exists_blanks_trim t
  constructor
  · intro h
    have start : t.trimStart = t := by
      apply (List.dropWhile_suffix isBlank).eq_of_length
      apply Nat.le_antisymm t.length_trimStart_le
      have bound := (List.rdropWhile_prefix isBlank t.trimStart).length_le
      have whole : (List.rdropWhile isBlank t.trimStart).length = t.length := congrArg _ h
      omega
    constructor
    · intro c hc blank
      cases t with
      | nil => simp at hc
      | cons d r =>
        obtain rfl : d = c := by simpa using hc
        rw [trimStart, List.dropWhile_cons_of_pos blank] at start
        have bound := length_trimStart_le r
        rw [trimStart, start, List.length_cons] at bound
        omega
    · intro c hc blank
      have stays : t.rdropWhile isBlank = t := by
        rw [trim, start] at h
        apply h
      have ne : t ≠ [] := by
        rintro rfl
        simp at hc
      rw [List.getLast?_eq_some_getLast ne, Option.mem_some_iff] at hc
      apply List.rdropWhile_eq_self_iff.1 stays ne
      rw [hc]
      apply blank
  · rintro ⟨first, last⟩
    rw [trim, trimStart_eq_self first]
    apply List.rdropWhile_eq_self_iff.2
    intro ne
    apply last
    apply List.getLast?_eq_some_getLast

/-- A text that is trimmed once is trimmed. -/
@[simp]
theorem trim_trim (t : Text) :
  t.trim.trim = t.trim
  := by
  obtain ⟨a, b, ha, hb, split⟩ := exists_blanks_trim t
  have := trim_append_blanks (t := t.trim) ha hb
  rw [split] at this
  apply this.symm

/-- A text that begins and ends with no blank is what is left between blanks. -/
theorem trim_blanks_append (ht : t.trim = t) (ha : ∀ c ∈ a, isBlank c)
    (hb : ∀ c ∈ b, isBlank c) :
  (a ++ t ++ b).trim = t
  := by
  rw [trim_append_blanks ha hb, ht]

/-- A text whose ends are trimmed texts is trimmed. -/
theorem trim_append_append (hs : s.trim = s) (s_ne : s ≠ []) (ht : t.trim = t) (t_ne : t ≠ [])
    (m : Text) :
  (s ++ (m ++ t)).trim = s ++ (m ++ t)
  := by
  rw [trim_eq_self_iff] at *
  rw [List.head?_append_of_ne_nil _ s_ne, List.getLast?_append_of_ne_nil _ (by simp [t_ne]),
    List.getLast?_append_of_ne_nil _ t_ne]
  apply And.intro hs.1 ht.2

/-! ### Texts around a character -/

/-- A character of joined texts is one of the separator or of one of the texts. -/
theorem mem_join {c : Char} {sep : Text} {ts : List Text} (h : c ∈ join sep ts) :
  c ∈ sep ∨ ∃ t ∈ ts, c ∈ t
  := by
  induction ts with
  | nil => simp [join] at h
  | cons t ts ih =>
    cases ts with
    | nil =>
      right
      use t, List.mem_cons_self
      simpa [join] using h
    | cons t' ts =>
      rw [join, List.intercalate_cons_cons, List.mem_append, List.mem_append] at h
      rcases h with (here | sep) | later
      · right
        use t, List.mem_cons_self, here
      · left
        exact sep
      · rcases ih later with sep | ⟨u, hu, mem⟩
        · left
          exact sep
        · right
          use u, List.mem_cons_of_mem t hu, mem

/-- A text is trimmed on either side of a character in it that is no blank. -/
theorem trim_append_cons {c : Char} (hc : ¬isBlank c) :
  (s ++ c :: t).trim = s.trimStart ++ c :: t.trimEnd
  := by
  have first : (s ++ c :: t).trimStart = s.trimStart ++ c :: t := by
    rw [trimStart, List.dropWhile_append]
    split
    · next h =>
      rw [List.isEmpty_iff] at h
      rw [trimStart, h, List.dropWhile_cons_of_neg hc, List.nil_append]
    · rfl
  have last : ∀ a : Text, trimEnd (a ++ c :: t) = a ++ c :: t.trimEnd := by
    intro a
    have shape : (a ++ c :: t).reverse = t.reverse ++ c :: a.reverse := by simp
    rw [trimEnd, shape, List.dropWhile_append]
    split
    · next h =>
      rw [List.isEmpty_iff] at h
      simp [trimEnd, h, List.dropWhile_cons_of_neg hc]
    · simp [trimEnd]
  rw [trim, first, last]

/-- The texts before and behind the first place of a character are told by the whole text. -/
theorem append_cons_inj {c : Char} {s' t' : Text} (hs : c ∉ s) (hs' : c ∉ s')
    (h : s ++ c :: t = s' ++ c :: t') :
  s = s' ∧ t = t'
  := by
  induction s generalizing s' with
  | nil =>
    cases s' with
    | nil => simpa using h
    | cons d s' => simp [(List.cons.inj h).1] at hs'
  | cons d s ih =>
    cases s' with
    | nil => simp [(List.cons.inj h).1] at hs
    | cons d' s' =>
      obtain ⟨rfl, further⟩ := List.cons.inj h
      rw [List.mem_cons, not_or] at hs hs'
      obtain ⟨rfl, rest⟩ := ih hs.2 hs'.2 further
      use rfl, rest

/-- A character that does not stand in a first part stands behind it. -/
theorem exists_of_append_cons_eq {c : Char} (hb : c ∉ b) (h : s ++ c :: t = b ++ a) :
  ∃ m, s = b ++ m ∧ a = m ++ c :: t
  := by
  rcases List.append_eq_append_iff.1 h with ⟨m, rfl, eq⟩ | ⟨m, rfl, rfl⟩
  · cases m with
    | nil => use [], by simp, by simpa using eq.symm
    | cons d m => simp [(List.cons.inj eq).1] at hb
  · use m

end Text

end Testbench
