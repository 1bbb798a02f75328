import Testbench.Check.Token
import Testbench.Proofs.Vhdl.Normal
import Mathlib.Algebra.Group.Nat.Even

/-!
# Tokens of texts behind one another

A text can be `Cut` off when the tokens of a longer text that begins with it are its own tokens and
those of the rest, and `CutAtStop` when this holds as soon as a stop follows.  The latter holds of a
`Sealed` text, in which no comment begins and every string that begins ends.
-/

namespace Testbench.Check

open Vhdl

variable {s t r w word : Text} {c d : Char} {m : Token} {q : Bool} {g : Gap}

/-! ### Steps of the scanner -/

/-- Two characters that are one token. -/
inductive IsPair : Char → Char → Token → Prop
  | becomes : IsPair ':' '=' .becomes
  | arrow : IsPair '=' '>' .arrow
  | lessEqual : IsPair '<' '=' .lessEqual

/-- A character is a token by itself in front of a text when the two begin with no pair. -/
def StandsAlone (c : Char) (r : Text) : Prop := ∀ d ∈ r.head?, ∀ m, ¬IsPair c d m

theorem tokenizeFrom_pair (h : IsPair c d m) (word r : Text) :
  tokenizeFrom false word (c :: d :: r) = wordToken word ++ m :: tokenizeFrom false [] r
  := by
  cases h <;> rfl

theorem tokenizeFrom_letter (hc : isWordChar c) (word r : Text) :
  tokenizeFrom false word (c :: r) = tokenizeFrom false (word ++ [c.toLower]) r
  := by
  rw [tokenizeFrom, if_pos hc] <;>
    · rintro r' rfl
      contradiction

theorem tokenizeFrom_mark (hc : ¬isWordChar c) (alone : StandsAlone c r) (word : Text) :
  tokenizeFrom false word (c :: r) = wordToken word ++ markToken c ++ tokenizeFrom (c == '"') [] r
  := by
  rw [tokenizeFrom, if_neg hc]
  · rintro r' rfl rfl
    apply alone '=' rfl _ .becomes
  · rintro r' rfl rfl
    apply alone '>' rfl _ .arrow
  · rintro r' rfl rfl
    apply alone '=' rfl _ .lessEqual

/-- What holds of every text when it holds in front of a character in a string, a pair, a letter of
a word and any other character as soon as it holds of the rest. -/
@[elab_as_elim]
theorem tokenizeFrom_induction {motive : Bool → Text → Text → Prop}
    (nil : ∀ q word, motive q word [])
    (quoted : ∀ word c r, motive (c != '"') word r → motive true word (c :: r))
    (pair : ∀ word c d m r, IsPair c d m → motive false [] r → motive false word (c :: d :: r))
    (letter : ∀ word c r, isWordChar c →
      motive false (word ++ [c.toLower]) r → motive false word (c :: r))
    (mark : ∀ word c r, ¬isWordChar c → StandsAlone c r →
      motive (c == '"') [] r → motive false word (c :: r))
    (q : Bool) (word t : Text) :
  motive q word t
  := by
  fun_induction tokenizeFrom q word t with
  | case1 q word => apply nil
  | case2 word c r ih => apply quoted word c r ih
  | case3 word r ih => apply pair word ':' '=' _ r .becomes ih
  | case4 word r ih => apply pair word '=' '>' _ r .arrow ih
  | case5 word r ih => apply pair word '<' '=' _ r .lessEqual ih
  | case6 word c r noBecomes noArrow noLess hc ih => apply letter word c r hc ih
  | case7 word c r noBecomes noArrow noLess other ih =>
    apply mark word c r other _ ih
    intro d hd m two
    obtain ⟨r', rfl⟩ := List.head?_eq_some_iff.1 hd
    cases two with
    | becomes => apply noBecomes r' rfl rfl
    | arrow => apply noArrow r' rfl rfl
    | lessEqual => apply noLess r' rfl rfl

/-- The characters that end a word and belong to no pair, to no comment and to no string. -/
def stops : Text := [' ', '\n', ';', ',', '(', ')']

theorem IsPair.not_mem_stops (h : IsPair c d m) :
  c ∉ stops ∧ d ∉ stops
  := by
  cases h <;> decide

theorem standsAlone_of_mem_stops (hc : c ∈ stops) :
  StandsAlone c r
  := fun _ _ _ two => two.not_mem_stops.1 hc

/-- A stop ends the word that has begun. -/
theorem tokenizeFrom_stop (hc : c ∈ stops) (word r : Text) :
  tokenizeFrom false word (c :: r) = wordToken word ++ markToken c ++ tokenizeFrom false [] r
  := by
  have letter : ∀ c ∈ stops, ¬isWordChar c := by decide
  have quote : ∀ c ∈ stops, (c == '"') = false := by decide
  rw [tokenizeFrom_mark (letter c hc) (standsAlone_of_mem_stops hc), quote c hc]

/-! ### Gaps -/

theorem tokenizeFrom_space (word r : Text) :
  tokenizeFrom false word (' ' :: r) = wordToken word ++ tokenizeFrom false [] r
  := by
  rw [tokenizeFrom_stop (by decide), show markToken ' ' = [] from rfl, List.append_nil]

/-- A space in front of a text is not seen. -/
theorem tokenizeFrom_nil_space (q : Bool) (r : Text) :
  tokenizeFrom q [] (' ' :: r) = tokenizeFrom q [] r
  := by
  cases q with
  | true => rfl
  | false => apply tokenizeFrom_space

/-- The space of a gap is not seen when no word has begun. -/
theorem tokenizeFrom_gap (q : Bool) (g : Gap) (r : Text) :
  tokenizeFrom q [] (g.space ++ r) = tokenizeFrom q [] r
  := by
  cases g with
  | opened => apply tokenizeFrom_nil_space
  | _ => rfl

/-- The gap in front of a text is not seen when no word has begun. -/
theorem tokenizeFrom_normalizeFrom (q : Bool) (region : Region) (g : Gap) (t : Text) :
  tokenizeFrom q [] (normalizeFrom region g t) =
    tokenizeFrom q [] (normalizeFrom region .start t)
  := by
  induction region, g, t using normalizeFrom_induction with
  | nil region g => simp [normalizeFrom]
  | opens g mark region r begins ih =>
    rw [normalizeFrom_of_opens begins, normalizeFrom_of_opens begins]
    apply ih
  | separator g c r separator ih =>
    rw [normalizeFrom_of_isSeparator separator, normalizeFrom_of_isSeparator separator]
    apply ih
  | kept g c r letter joins ih =>
    rw [normalizeFrom_of_joins letter joins, normalizeFrom_of_joins letter joins]
    apply tokenizeFrom_gap
  | closes region g mark r ends ih =>
    rw [normalizeFrom_of_closes ends, normalizeFrom_of_closes ends]
    apply ih
  | comment region g c r comment inside ih =>
    rw [normalizeFrom_of_comment comment inside, normalizeFrom_of_comment comment inside]
    apply ih

/-- A gap ends a word that has begun. -/
theorem tokenizeFrom_opened (word : Text) (region : Region) (t : Text) :
  tokenizeFrom false word (normalizeFrom region .opened t) =
    wordToken word ++ tokenizeFrom false [] (normalizeFrom region .start t)
  := by
  rw [← tokenizeFrom_normalizeFrom false region .opened]
  have begins := (tidy_normalizeFrom region .opened t).2
  cases h : normalizeFrom region .opened t with
  | nil =>
    rw [tokenizeFrom, tokenizeFrom]
    simp [wordToken]
  | cons c r =>
    rw [h] at begins
    obtain rfl : c = ' ' := begins c rfl
    rw [tokenizeFrom_space, tokenizeFrom_nil_space]

/-- A separator ends the word that has begun. -/
theorem tokenizeFrom_separator (hc : isSeparator c) (word t : Text) :
  tokenizeFrom false word (normalizeFrom .code .closed (c :: t)) =
    wordToken word ++ tokenizeFrom false [] (normalizeFrom .code .closed t)
  := by
  rw [normalizeFrom_of_isSeparator hc, tokenizeFrom_normalizeFrom false .code .closed]
  apply tokenizeFrom_opened

/-- A separator is no mark and no quote. -/
theorem markToken_of_isSeparator (hc : isSeparator c) :
  markToken c = [] ∧ (c == '"') = false
  := by
  simp only [isSeparator, Bool.or_eq_true, beq_iff_eq] at hc
  rcases hc with (((((rfl | rfl) | rfl) | rfl) | rfl) | rfl) | rfl <;> decide

/-! ### Sealed texts -/

/-- Two characters that begin no comment when they stand behind one another. -/
def Uncommented (a b : Char) : Prop := ¬(a = '-' ∧ b = '-') ∧ ¬(a = '/' ∧ b = '*')

instance : DecidableRel Uncommented := fun _ _ => inferInstanceAs (Decidable (_ ∧ _))

/-- A text is sealed when no comment begins in it and every string that begins in it ends. -/
structure Sealed (t : Text) : Prop where
  chain : t.IsChain Uncommented
  even : Even (t.count '"')

/-- The first character of a sealed text is kept when a stop follows the text. -/
theorem joins_of_isChain (chain : (c :: t).IsChain Uncommented) (hc : ¬isSeparator c)
    (hr : ∀ c ∈ r.head?, c ∈ stops) :
  ∀ d ∈ (t ++ r).head?, Joins c d
  := by
  have next : ∀ d ∈ stops, d ≠ '-' ∧ d ≠ '*' := by decide
  intro d hd
  cases t with
  | nil =>
    obtain ⟨dash, star⟩ := next d (hr d hd)
    simp [Joins, dash, star, hc]
  | cons d' t =>
    obtain rfl : d' = d := by simpa using hd
    obtain ⟨line, block⟩ := (List.isChain_cons_cons.1 chain).1
    simp [Joins, line, block, hc]

theorem normalizeFrom_cons (chain : (c :: t).IsChain Uncommented) (hc : ¬isSeparator c)
    (hr : ∀ c ∈ r.head?, c ∈ stops) :
  normalizeFrom .code .closed (c :: t ++ r) = c :: normalizeFrom .code .closed (t ++ r)
  := normalizeFrom_of_joins hc (joins_of_isChain chain hc hr)

theorem normalizeFrom_cons_cons (chain : (c :: d :: t).IsChain Uncommented)
    (hc : ¬isSeparator c) (hd : ¬isSeparator d) (hr : ∀ c ∈ r.head?, c ∈ stops) :
  normalizeFrom .code .closed (c :: d :: t ++ r) =
    c :: d :: normalizeFrom .code .closed (t ++ r)
  := by
  rw [normalizeFrom_cons chain hc hr, normalizeFrom_cons chain.of_cons hd hr]

theorem IsPair.not_isSeparator (h : IsPair c d m) :
  ¬isSeparator c ∧ ¬isSeparator d
  := by
  cases h <;> decide

theorem IsPair.ne_quote (h : IsPair c d m) :
  c ≠ '"' ∧ d ≠ '"'
  := by
  cases h <;> decide

/-- A character that stands alone in a text does so when a stop follows the text. -/
theorem StandsAlone.normalizeFrom (alone : StandsAlone c t) (hr : ∀ c ∈ r.head?, c ∈ stops) :
  StandsAlone c (normalizeFrom .code .closed (t ++ r))
  := by
  intro d hd m two
  have written : (t ++ r).head? = some d := by
    apply ((tidy_normalizeFrom .code .closed (t ++ r)).2 rfl d hd).resolve_left
    rintro rfl
    exact two.not_isSeparator.2 rfl
  cases t with
  | nil => apply two.not_mem_stops.2 (hr d written)
  | cons e t => apply alone d (by simpa using written) m two

/-- A stop ends the word that has begun, and what follows it is read by itself. -/
theorem tokenizeFrom_normalizeFrom_stop (hc : c ∈ stops) (word r : Text) :
  tokenizeFrom false word (normalizeFrom .code .closed (c :: r)) =
    wordToken word ++ (markToken c ++ tokens r)
  := by
  have plain : ∀ c ∈ stops, c ≠ '-' ∧ c ≠ '/' := by decide
  obtain ⟨dash, slash⟩ := plain c hc
  by_cases separator : isSeparator c
  · rw [tokenizeFrom_separator separator, (markToken_of_isSeparator separator).1,
      tokenizeFrom_normalizeFrom]
    rfl
  · have joins : ∀ d ∈ r.head?, Joins c d := by
      intro d _
      simp [Joins, dash, slash, separator]
    rw [normalizeFrom_of_joins separator joins]
    refine (tokenizeFrom_stop hc word _).trans ?_
    rw [tokenizeFrom_normalizeFrom, List.append_assoc]
    rfl

theorem tokens_stop (hc : c ∈ stops) (r : Text) :
  tokens (c :: r) = markToken c ++ tokens r
  := by
  rw [tokens, Vhdl.normalize, tokenize, ← tokenizeFrom_normalizeFrom false .code .closed]
  apply tokenizeFrom_normalizeFrom_stop hc []

@[simp]
theorem tokens_nil :
  tokens [] = []
  := rfl

/-- What is read of a sealed text does not depend on what follows behind a stop, whether the
text begins in a string or not. -/
theorem tokenizeFrom_append (q : Bool) (word t r : Text) (hq : q → word = [])
    (chain : t.IsChain Uncommented) (even : Even (t.count '"' + q.toNat))
    (hr : ∀ c ∈ r.head?, c ∈ stops) :
  tokenizeFrom q word (normalizeFrom .code .closed (t ++ r)) =
    tokenizeFrom q word t ++ tokens r
  := by
  induction q, word, t using tokenizeFrom_induction with
  | nil q word =>
    obtain rfl : q = false := by
      cases q with
      | false => rfl
      | true => simp at even
    cases r with
    | nil => simp [tokens, Vhdl.normalize, Vhdl.normalizeFrom, tokenize, tokenizeFrom, wordToken]
    | cons c r =>
      rw [tokens_stop (hr c rfl)]
      apply tokenizeFrom_normalizeFrom_stop (hr c rfl)
  | quoted word c t ih =>
    obtain rfl := hq rfl
    rw [Nesting.even_count_cons, Bool.true_xor] at even
    have rest := ih (by simp) chain.of_cons even
    rw [tokenizeFrom]
    by_cases separator : isSeparator c
    · have quote : (c != '"') = true := by
        rw [bne_iff_ne]
        rintro rfl
        contradiction
      rw [List.cons_append, normalizeFrom_of_isSeparator separator, tokenizeFrom_normalizeFrom,
        ← tokenizeFrom_normalizeFrom true .code .closed]
      rwa [quote] at rest ⊢
    · rw [normalizeFrom_cons chain separator hr]
      apply rest
  | pair word c d m t two ih =>
    have rest := ih (by simp) chain.of_cons.of_cons (by simpa [two.ne_quote] using even)
    rw [normalizeFrom_cons_cons chain two.not_isSeparator.1 two.not_isSeparator.2 hr,
      tokenizeFrom_pair two, tokenizeFrom_pair two, rest, List.append_assoc]
    rfl
  | letter word c t letter ih =>
    rw [Nesting.even_count_cons, Bool.false_xor] at even
    have quote : (c == '"') = false := by
      rw [beq_eq_false_iff_ne]
      rintro rfl
      contradiction
    rw [quote] at even
    rw [normalizeFrom_cons chain (joins_of_isWordChar letter).1 hr, tokenizeFrom_letter letter,
      tokenizeFrom_letter letter, ih (by simp) chain.of_cons even]
  | mark word c t other alone ih =>
    rw [Nesting.even_count_cons, Bool.false_xor] at even
    have rest := ih (by simp) chain.of_cons even
    rw [tokenizeFrom_mark other alone]
    by_cases separator : isSeparator c
    · obtain ⟨mark, quote⟩ := markToken_of_isSeparator separator
      rw [quote] at rest ⊢
      rw [List.cons_append, tokenizeFrom_separator separator, rest, mark, List.append_nil,
        List.append_assoc]
    · rw [normalizeFrom_cons chain separator hr, tokenizeFrom_mark other (alone.normalizeFrom hr),
        rest, ← List.append_assoc]

/-- The tokens of a sealed text are read without regard to gaps. -/
theorem Sealed.tokens_append (ht : Sealed t) (hr : ∀ c ∈ r.head?, c ∈ stops) :
  tokens (t ++ r) = tokenize t ++ tokens r
  := by
  rw [tokens, Vhdl.normalize, tokenize, ← tokenizeFrom_normalizeFrom false .code .closed]
  apply tokenizeFrom_append false [] t r (by simp) ht.chain (by simpa using ht.even) hr

theorem Sealed.tokens (ht : Sealed t) :
  tokens t = tokenize t
  := by
  have := ht.tokens_append (r := []) (by simp)
  rwa [List.append_nil, tokens_nil, List.append_nil] at this

/-- No comment begins in a text without dashes and slashes. -/
theorem isChain_of_forall (ht : ∀ c ∈ t, c ≠ '-' ∧ c ≠ '/') :
  t.IsChain Uncommented
  := by
  induction t with
  | nil => apply List.isChain_nil
  | cons c t ih =>
    rw [List.isChain_cons]
    obtain ⟨dash, slash⟩ := ht c List.mem_cons_self
    constructor
    · intro d _
      simp [Uncommented, dash, slash]
    · apply ih fun d hd => ht d (List.mem_cons_of_mem c hd)

/-- A character is calm when it begins no string and no comment. -/
def IsCalm (c : Char) : Prop := c ≠ '"' ∧ c ≠ '-' ∧ c ≠ '/'

instance : DecidablePred IsCalm := fun _ => inferInstanceAs (Decidable (_ ∧ _))

theorem isCalm_of_isWordChar (hc : isWordChar c) :
  IsCalm c
  := by
  refine ⟨?_, ?_, ?_⟩ <;>
    · rintro rfl
      contradiction

/-- A text of calm characters is sealed. -/
theorem sealed_of_isCalm (ht : ∀ c ∈ t, IsCalm c) :
  Sealed t
  := by
  use isChain_of_forall fun c hc => (ht c hc).2
  have absent : '"' ∉ t := fun mem => (ht '"' mem).1 rfl
  rw [List.count_eq_zero.2 absent]
  apply Even.zero

/-- A text without the character `>` has no arrow. -/
theorem arrow_not_mem_tokenizeFrom (q : Bool) (word t : Text) (ht : '>' ∉ t) :
  .arrow ∉ tokenizeFrom q word t
  := by
  have word' : ∀ word, .arrow ∉ wordToken word := by
    intro word
    rw [wordToken]
    split <;> simp
  induction q, word, t using tokenizeFrom_induction with
  | nil q word => simp_all [tokenizeFrom]
  | quoted word c t ih => simp_all [tokenizeFrom]
  | pair word c d m t two ih =>
    have pair : .arrow ≠ m := by
      rintro rfl
      cases two
      simp at ht
    simp_all [tokenizeFrom_pair two]
  | letter word c t letter ih => simp_all [tokenizeFrom_letter letter]
  | mark word c t other alone ih =>
    have mark : .arrow ∉ markToken c := by
      rw [markToken]
      repeat' split
      all_goals simp
    simp_all [tokenizeFrom_mark other alone]

/-! ### Words -/

theorem tokenizeFrom_word (hw : ∀ c ∈ w, isWordChar c) (word r : Text) :
  tokenizeFrom false word (w ++ r) = tokenizeFrom false (word ++ w.lower) r
  := by
  induction w generalizing word with
  | nil => rw [List.nil_append, show Text.lower [] = [] from rfl, List.append_nil]
  | cons c w ih =>
    rw [List.cons_append, tokenizeFrom_letter (hw c List.mem_cons_self),
      ih fun d hd => hw d (List.mem_cons_of_mem c hd), List.append_assoc]
    rfl

theorem sealed_of_isWordChar (hw : ∀ c ∈ w, isWordChar c) :
  Sealed w
  := sealed_of_isCalm fun c hc => isCalm_of_isWordChar (hw c hc)

/-- The token of a word is the word in lower case. -/
theorem tokens_word (hw : ∀ c ∈ w, isWordChar c) :
  tokens w = wordToken w.lower
  := by
  rw [(sealed_of_isWordChar hw).tokens, tokenize]
  have := tokenizeFrom_word hw [] []
  rwa [List.append_nil] at this

/-! ### Texts that can be cut off -/

/-- A text can be cut off when the tokens of a longer text that begins with it are its own
tokens and those of the rest. -/
def Cut (t : Text) : Prop := ∀ r, tokens (t ++ r) = tokens t ++ tokens r

/-- A text can be cut off at a stop when it can be cut off from a rest that begins with one. -/
def CutAtStop (t : Text) : Prop :=
  ∀ r, (∀ c ∈ r.head?, c ∈ stops) → tokens (t ++ r) = tokens t ++ tokens r

theorem Sealed.cutAtStop (ht : Sealed t) :
  CutAtStop t
  := by
  intro r hr
  rw [ht.tokens_append hr, ht.tokens]

theorem Cut.nil :
  Cut []
  := fun _ => rfl

theorem Cut.append (hs : Cut s) (ht : Cut t) :
  Cut (s ++ t)
  := by
  intro r
  rw [List.append_assoc, hs, ht, hs, List.append_assoc]

theorem Cut.append_cutAtStop (hs : Cut s) (ht : CutAtStop t) :
  CutAtStop (s ++ t)
  := by
  intro r hr
  rw [List.append_assoc, hs, ht r hr, hs, List.append_assoc]

theorem Cut.cutAtStop (ht : Cut t) :
  CutAtStop t
  := fun r _ => ht r

/-- A text that can be cut off follows one that can be cut off at a stop when it begins with a
stop. -/
theorem CutAtStop.append_cons (hs : CutAtStop s) (hc : c ∈ stops) (ht : Cut (c :: t)) :
  Cut (s ++ c :: t)
  := by
  intro r
  rw [List.append_assoc, hs _ (by simpa using hc), ht, hs _ (by simpa using hc), List.append_assoc]

theorem CutAtStop.append (hs : CutAtStop s) (ht : CutAtStop t) (first : ∀ c ∈ t.head?, c ∈ stops) :
  CutAtStop (s ++ t)
  := by
  intro r hr
  rw [List.append_assoc, hs t first, List.append_assoc, ← ht r hr]
  apply hs
  intro c hc
  cases t with
  | nil => apply hr c hc
  | cons d t => apply first c hc

theorem cut_stop (hc : c ∈ stops) :
  Cut [c]
  := by
  intro r
  rw [List.singleton_append, tokens_stop hc, tokens_stop hc, tokens_nil, List.append_nil]

/-- A comment on a line of its own has no tokens and can be cut off. -/
theorem tokens_comment (ht : '\n' ∉ t) (r : Text) :
  tokens ('-' :: '-' :: t ++ '\n' :: r) = tokens r
  := by
  have skip : normalizeFrom .lineComment .start (t ++ '\n' :: r) =
      normalizeFrom .code .start r := by
    induction t with
    | nil => rfl
    | cons c t ih =>
      rw [List.mem_cons, not_or] at ht
      rw [List.cons_append, normalizeFrom, ih ht.2]
      intro feed
      apply ht.1 feed.symm
  exact congrArg tokenize skip

end Testbench.Check
