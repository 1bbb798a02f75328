import Testbench.Proofs.Check.Token
import Testbench.Proofs.Vhdl.Reading

/-!
# Texts that read alike

Two texts are `Interchangeable` when a longer text has the same tokens with either of them,
whatever stands around them.  Spaces are interchangeable with none behind a space or a line end,
and between a name and the mark behind it: even if a comment or a string has begun before them,
nothing is seen of them.
-/

namespace Testbench.Check

open Text Vhdl

variable {s s' t t' u before r word : Text} {c m x : Char} {region : Region} {g : Gap} {q : Bool}

/-! ### Reading on -/

/-- Characters with which no comment begins or ends that begins before them. -/
def Resumes (c : Char) : Prop := c ≠ '-' ∧ c ≠ '*' ∧ c ≠ '/'

theorem clear_of_resumes {s : Text} (hr : ∀ c ∈ r.head?, Resumes c) :
  region.Clear s r
  := by
  intro a _ b hb
  obtain ⟨dash, star, slash⟩ := hr b hb
  cases region.after s <;> simp [Region.Parts, dash, star, slash]

/-- Characters with which a mark of two characters ends. -/
def Ends (c : Char) : Prop := c = '=' ∨ c = '>'

theorem IsPair.ends {k : Token} (h : IsPair c x k) :
  Ends x
  := by
  cases h <;> simp [Ends]

/-- A character that stands alone in a text does so when no pair ends behind the text. -/
theorem StandsAlone.append (alone : StandsAlone c before) (hr : ∀ c ∈ r.head?, ¬Ends c) :
  StandsAlone c (before ++ r)
  := by
  intro d hd k two
  cases before with
  | nil => apply hr d hd two.ends
  | cons e before => apply alone d hd k two

/-- Whether a string is open behind a text, where `q` says whether one is open before it. -/
def quotedAfter (q : Bool) (t : Text) : Bool := t.foldl (fun q c => q ^^ c == '"') q

theorem quotedAfter_cons (q : Bool) (c : Char) (t : Text) :
  quotedAfter q (c :: t) = quotedAfter (q ^^ c == '"') t
  := rfl

/-- A scanner has given the tokens of a text in front and is in or outside of a string and behind
the start of a word, which is empty in a string. -/
theorem exists_tokenizeFrom_append (q : Bool) (word before : Text) :
  ∃ found word', ((q → word = []) → quotedAfter q before → word' = []) ∧
    ∀ r, (∀ c ∈ r.head?, ¬Ends c) →
      tokenizeFrom q word (before ++ r) = found ++ tokenizeFrom (quotedAfter q before) word' r
  := by
  induction q, word, before using tokenizeFrom_induction with
  | nil q word =>
    use [], word, id
    simp [quotedAfter]
  | quoted word c before ih =>
    obtain ⟨found, word', inside, reads⟩ := ih
    have open' : quotedAfter true (c :: before) = quotedAfter (c != '"') before := by
      rw [quotedAfter_cons, Bool.true_xor]
      rfl
    rw [open']
    use found, word', fun h => inside fun _ => h rfl
    intro r hr
    rw [List.cons_append, tokenizeFrom, reads r hr]
  | pair word c d m before two ih =>
    obtain ⟨found, word', inside, reads⟩ := ih
    have outside : quotedAfter false (c :: d :: before) = quotedAfter false before := by
      rw [quotedAfter_cons, quotedAfter_cons, beq_eq_false_iff_ne.2 two.ne_quote.1,
        beq_eq_false_iff_ne.2 two.ne_quote.2]
      rfl
    rw [outside]
    use wordToken word ++ m :: found, word', fun _ => inside (by simp)
    intro r hr
    rw [List.cons_append, List.cons_append, tokenizeFrom_pair two, reads r hr, List.append_assoc]
    rfl
  | letter word c before letter ih =>
    obtain ⟨found, word', inside, reads⟩ := ih
    have quote : (c == '"') = false := beq_eq_false_iff_ne.2 (isCalm_of_isWordChar letter).1
    rw [quotedAfter_cons, quote, Bool.false_xor]
    use found, word', fun _ => inside (by simp)
    intro r hr
    rw [List.cons_append, tokenizeFrom_letter letter, reads r hr]
  | mark word c before other alone ih =>
    obtain ⟨found, word', inside, reads⟩ := ih
    rw [quotedAfter_cons, Bool.false_xor]
    use wordToken word ++ markToken c ++ found, word', fun _ => inside fun _ => rfl
    intro r hr
    rw [List.cons_append, tokenizeFrom_mark other (alone.append hr), reads r hr,
      List.append_assoc _ found]

/-! ### Interchangeable texts -/

/-- Two texts are interchangeable when a longer text has the same tokens with either of them. -/
def Interchangeable (s t : Text) : Prop :=
  ∀ before behind, tokens (before ++ s ++ behind) = tokens (before ++ t ++ behind)

namespace Interchangeable

theorem refl (t : Text) :
  Interchangeable t t
  := fun _ _ => rfl

theorem symm (h : Interchangeable s t) :
  Interchangeable t s
  := fun before behind => (h before behind).symm

theorem trans (h : Interchangeable s t) (h' : Interchangeable t u) :
  Interchangeable s u
  := fun before behind => (h before behind).trans (h' before behind)

theorem append (h : Interchangeable s t) (h' : Interchangeable s' t') :
  Interchangeable (s ++ s') (t ++ t')
  := by
  intro before behind
  have first := h before (s' ++ behind)
  have second := h' (before ++ t) behind
  simp only [List.append_assoc] at first second ⊢
  exact first.trans second

theorem append_left (h : Interchangeable s t) (u : Text) :
  Interchangeable (u ++ s) (u ++ t)
  := (refl u).append h

theorem append_right (h : Interchangeable s t) (u : Text) :
  Interchangeable (s ++ u) (t ++ u)
  := h.append (refl u)

theorem tokens_eq (h : Interchangeable s t) :
  tokens s = tokens t
  := by
  have same := h [] []
  rwa [List.nil_append, List.nil_append, List.append_nil, List.append_nil] at same

end Interchangeable

/-- A space behind a space or a line end is not seen. -/
theorem interchangeable_space (hx : x = ' ' ∨ x = '\n') :
  Interchangeable [x, ' '] [x]
  := by
  have separator : isSeparator x := by
    rcases hx with rfl | rfl <;> rfl
  have resumes : Resumes x := by
    rcases hx with rfl | rfl <;> simp [Resumes]
  intro before behind
  obtain ⟨g, wide, -, reads⟩ := exists_normalizeFrom_append .code .start before (by simp)
  generalize Region.code.after before = region at wide reads
  have same :
      normalizeFrom region g (x :: ' ' :: behind) = normalizeFrom region g (x :: behind) := by
    cases region with
    | code =>
      rw [normalizeFrom_of_isSeparator separator, normalizeFrom_of_isSeparator separator,
        normalizeFrom_of_isSeparator rfl, widen_widen]
    | lineComment =>
      rcases hx with rfl | rfl
      · rw [normalizeFrom_lineComment (by decide)]
      -- the gap is wide already, because a comment has begun before
      · rw [normalizeFrom_lineEnd, normalizeFrom_lineEnd, normalizeFrom_of_isSeparator rfl,
          wide (by simp)]
    | blockComment =>
      have inside : ∀ r, normalizeFrom .blockComment g (x :: r) = normalizeFrom .blockComment g r :=
        fun r => normalizeFrom_blockComment fun star => absurd star resumes.2.1
      rw [inside, normalizeFrom_blockComment (by simp), inside]
  have squeezed : normalize (before ++ x :: ' ' :: behind) = normalize (before ++ x :: behind) := by
    rw [Vhdl.normalize, Vhdl.normalize, reads _ (clear_of_resumes (by simpa using resumes)),
      reads _ (clear_of_resumes (by simpa using resumes)), same]
  simp only [tokens, List.append_assoc, List.cons_append, List.nil_append, squeezed]

/-- A character other than a quote is not seen in a string. -/
theorem tokenizeFrom_quoted (hc : c ≠ '"') (word r : Text) :
  tokenizeFrom true word (c :: r) = tokenizeFrom true word r
  := by
  rw [tokenizeFrom, bne_iff_ne.2 hc]

/-- A character outside of words ends the word that has begun. -/
theorem tokenizeFrom_of_not_isWordChar (hc : ¬isWordChar c) (word r : Text) :
  tokenizeFrom false word (c :: r) = wordToken word ++ tokenizeFrom false [] (c :: r)
  := by
  by_cases two : ∃ d ∈ r.head?, ∃ k, IsPair c d k
  · obtain ⟨d, hd, k, pair⟩ := two
    obtain ⟨r', rfl⟩ := List.head?_eq_some_iff.1 hd
    rw [tokenizeFrom_pair pair, tokenizeFrom_pair pair]
    rfl
  · have alone : StandsAlone c r := fun d hd k pair => two ⟨d, hd, k, pair⟩
    rw [tokenizeFrom_mark hc alone, tokenizeFrom_mark hc alone, List.append_assoc]
    rfl

/-- A space between the last character of a word and a mark is not seen. -/
theorem tokenizeFrom_space_mark (hc : isWordChar c) (hm : m = ':' ∨ m = '=') (q : Bool)
    (word r : Text) :
  tokenizeFrom q word (c :: ' ' :: m :: r) = tokenizeFrom q word (c :: m :: r)
  := by
  have mark : ¬isWordChar m ∧ m ≠ '"' := by
    rcases hm with rfl | rfl <;> decide
  cases q with
  | true =>
    have quote : c ≠ '"' := by
      rintro rfl
      contradiction
    rw [tokenizeFrom_quoted quote, tokenizeFrom_quoted (by decide), tokenizeFrom_quoted quote]
  | false =>
    rw [tokenizeFrom_letter hc, tokenizeFrom_letter hc, tokenizeFrom_space,
      tokenizeFrom_of_not_isWordChar mark.1 (word ++ _)]

/-- A space between the last character of a word and a mark in code is not seen behind what has been
written before. -/
theorem tokenize_space_mark (hc : isWordChar c) (hm : m = ':' ∨ m = '=') (written : Text) (g : Gap)
    (r : Text) :
  tokenize (written ++ normalizeFrom .code g (c :: ' ' :: m :: r)) =
    tokenize (written ++ normalizeFrom .code g (c :: m :: r))
  := by
  have apart : ¬Ends c := by
    rintro (rfl | rfl) <;> contradiction
  have letter := joins_of_isWordChar hc
  have joins : ∀ d, Joins m d := by
    intro d
    rcases hm with rfl | rfl <;> simp [Joins, isSeparator]
  have plain : ¬isSeparator m := by
    rcases hm with rfl | rfl <;> decide
  rw [normalizeFrom_of_joins letter.1 fun d _ => letter.2 d,
    normalizeFrom_of_joins letter.1 fun d _ => letter.2 d, normalizeFrom_of_isSeparator rfl,
    normalizeFrom_of_joins plain fun d _ => joins d,
    normalizeFrom_of_joins plain fun d _ => joins d]
  obtain ⟨found, word, -, scans⟩ := exists_tokenizeFrom_append false [] (written ++ g.space)
  rw [tokenize, tokenize, ← List.append_assoc, ← List.append_assoc, scans, scans]
  · congr 1
    apply tokenizeFrom_space_mark hc hm
  · simpa using apart
  · simpa using apart

/-- A space between the last character of a word and a mark is not seen. -/
theorem interchangeable_space_mark (hc : isWordChar c) (hm : m = ':' ∨ m = '=') :
  Interchangeable [c, ' ', m] [c, m]
  := by
  have resumes : Resumes c := by
    refine ⟨?_, ?_, ?_⟩ <;>
      · rintro rfl
        contradiction
  have feed : c ≠ '\n' := by
    rintro rfl
    contradiction
  intro before behind
  obtain ⟨g, -, -, reads⟩ := exists_normalizeFrom_append .code .start before (by simp)
  generalize Region.code.after before = region at reads
  generalize normalizeFrom .code .start before = written at reads
  have same : tokenize (written ++ normalizeFrom region g (c :: ' ' :: m :: behind)) =
      tokenize (written ++ normalizeFrom region g (c :: m :: behind)) := by
    cases region with
    | code => apply tokenize_space_mark hc hm
    | lineComment =>
      rw [normalizeFrom_lineComment feed, normalizeFrom_lineComment (by decide),
        normalizeFrom_lineComment feed]
    | blockComment =>
      have inside : ∀ r, normalizeFrom .blockComment g (c :: r) = normalizeFrom .blockComment g r :=
        fun r => normalizeFrom_blockComment fun star => absurd star resumes.2.1
      rw [inside, normalizeFrom_blockComment (by simp), inside]
  simp only [tokens, List.append_assoc, List.cons_append, List.nil_append, Vhdl.normalize]
  rw [reads _ (clear_of_resumes (by simpa using resumes)),
    reads _ (clear_of_resumes (by simpa using resumes)), same]

/-- Spaces behind a space or a line end are not seen. -/
theorem interchangeable_spaces (hx : x = ' ' ∨ x = '\n') (n : Nat) :
  Interchangeable (x :: spaces n) [x]
  := by
  induction n with
  | zero => apply Interchangeable.refl
  | succ n ih =>
    have fewer : Interchangeable (x :: spaces (n + 1)) (x :: spaces n) :=
      (interchangeable_space hx).append_right (spaces n)
    apply fewer.trans ih

/-- Spaces between a word and a mark are not seen. -/
theorem interchangeable_padding {w : Text} (hw : w.getLast?.any isWordChar)
    (hm : m = ':' ∨ m = '=') (n : Nat) :
  Interchangeable (w ++ spaces n ++ [m]) (w ++ [m])
  := by
  obtain ⟨c, last, hc⟩ := Option.any_eq_true _ _ |>.1 hw
  obtain ⟨w, rfl⟩ := List.getLast?_eq_some_iff.1 last
  have gap : Interchangeable ([c] ++ spaces n ++ [m]) ([c] ++ [m]) := by
    cases n with
    | zero => apply Interchangeable.refl
    | succ n =>
      have one : Interchangeable ([c] ++ spaces (n + 1) ++ [m]) ([c] ++ [' '] ++ [m]) := by
        apply ((interchangeable_spaces (.inl rfl) n).append_left [c]).append_right [m]
      apply one.trans (interchangeable_space_mark hc hm)
  have whole := gap.append_left w
  simpa only [List.append_assoc] using whole

/-! ### Lines -/

/-- Two texts are interchangeable behind a line end. -/
def BehindLineEnd (s t : Text) : Prop := Interchangeable ('\n' :: s) ('\n' :: t)

theorem BehindLineEnd.append (h : BehindLineEnd s t) (h' : Interchangeable s' t') :
  BehindLineEnd (s ++ s') (t ++ t')
  := Interchangeable.append h h'

/-- A line end in front of texts is not seen. -/
theorem BehindLineEnd.tokens_eq (h : BehindLineEnd s t) :
  tokens s = tokens t
  := by
  have same := Interchangeable.tokens_eq h
  rwa [tokens_stop (by decide), tokens_stop (by decide), show markToken '\n' = [] from rfl,
    List.nil_append, List.nil_append] at same

/-- The indentation of a line is not seen. -/
theorem BehindLineEnd.indent (h : Interchangeable s t) (m n : Nat) :
  BehindLineEnd (spaces m ++ s) (spaces n ++ t)
  := by
  have same : Interchangeable ('\n' :: spaces m) ('\n' :: spaces n) :=
    (interchangeable_spaces (.inr rfl) m).trans (interchangeable_spaces (.inr rfl) n).symm
  exact same.append h

/-- Two texts are interchangeable as lines when they are so behind a line end and the first of them
is empty or ends with one. -/
structure Lines (s t : Text) : Prop where
  behind : BehindLineEnd s t
  last : ∀ c ∈ s.getLast?, c = '\n'

namespace Lines

theorem nil :
  Lines [] []
  := ⟨.refl _, by simp⟩

theorem refl (h : ∀ c ∈ t.getLast?, c = '\n') :
  Lines t t
  := ⟨.refl _, h⟩

/-- A text that ends with a line end is interchangeable with itself as lines. -/
theorem refl_append (s : Text) (h : t.getLast? = some '\n') :
  Lines (s ++ t) (s ++ t)
  := by
  apply refl
  rw [List.getLast?_append, h]
  simp

theorem of_behindLineEnd (h : BehindLineEnd s t) :
  Lines (s ++ ['\n']) (t ++ ['\n'])
  := ⟨h.append (.refl _), by simp⟩

/-- What is interchangeable behind a line end is so behind lines. -/
theorem append_behindLineEnd (h : Lines s t) (h' : BehindLineEnd s' t') :
  BehindLineEnd (s ++ s') (t ++ t')
  := by
  obtain ⟨front, eq⟩ : ∃ front, '\n' :: s = front ++ ['\n'] := by
    cases hs : s.getLast? with
    | none =>
      obtain rfl := List.getLast?_eq_none_iff.1 hs
      use []
      rfl
    | some c =>
      obtain rfl := h.last c hs
      obtain ⟨front, rfl⟩ := List.getLast?_eq_some_iff.1 hs
      use '\n' :: front
      rfl
  have rest : Interchangeable ('\n' :: s ++ s') ('\n' :: s ++ t') := by
    rw [eq, List.append_assoc, List.append_assoc]
    apply h'.append_left front
  apply rest.trans
  apply h.behind.append_right t'

theorem append (h : Lines s t) (h' : Lines s' t') :
  Lines (s ++ s') (t ++ t')
  := by
  use h.append_behindLineEnd h'.behind
  intro c hc
  rw [List.getLast?_append] at hc
  cases hs : s'.getLast? with
  | none =>
    rw [hs] at hc
    apply h.last c hc
  | some d =>
    rw [hs] at hc
    obtain rfl : d = c := by simpa using hc
    apply h'.last d hs

/-- Lists of lines are interchangeable when their members are. -/
theorem flatten {ss ts : List Text} (h : List.Forall₂ Lines ss ts) :
  Lines ss.flatten ts.flatten
  := by
  induction h with
  | nil => apply nil
  | cons here _ ih => apply here.append ih

end Lines

end Testbench.Check
