import Testbench.Check.Missing
import Testbench.Proofs.Check.Token

/-!
# Texts that associate none of some names

The tokens of a bench associate a name when an arrow follows it.  Tokens are `Silent` about
some names when they associate none of them in whatever tokens they stand, provided that these
do not end with such a name before an arrow.  A bench is cut into pieces with silent tokens.
-/

namespace Testbench.Check

open Vhdl

variable {names : Text → Prop} {n s t w : Text} {c : Char} {a b ts : List Token} {m : Token}
  {k : Nat}

/-! ### Associations -/

/-- An association in tokens behind one another stands in either part or where they meet. -/
theorem associates_append (n : Text) (a b : List Token) :
  associates n (a ++ b) =
    (associates n a || (a.getLast? == some (.word n) && b.head? == some .arrow) ||
      associates n b)
  := by
  induction a with
  | nil => simp [associates]
  | cons t a ih =>
    cases a with
    | nil => simp [associates]
    | cons t' a =>
      have step : ∀ ts, associates n (t :: t' :: ts) =
          ((t == .word n && t' == .arrow) || associates n (t' :: ts)) := fun _ => rfl
      rw [List.cons_append, List.cons_append, step, ← List.cons_append, ih, step]
      simp [Bool.or_assoc]

/-- What a part of the tokens associates the tokens associate. -/
theorem associates_of_isInfix (h : associates n a) (part : a <:+: ts) :
  associates n ts
  := by
  obtain ⟨before, behind, rfl⟩ := part
  simp [associates_append, h]

theorem not_associates_of_not_mem (h : .arrow ∉ ts) (n : Text) :
  associates n ts = false
  := by
  induction ts with
  | nil => rfl
  | cons t ts ih =>
    rw [List.mem_cons, not_or] at h
    rw [associates, ih h.2, Bool.or_false, Bool.and_eq_false_iff]
    right
    cases ts with
    | nil => rfl
    | cons t' ts =>
      rw [List.mem_cons, not_or] at h
      simpa using Ne.symm h.2.1

/-- A name that is no token is not associated. -/
theorem not_associates_of_word_not_mem (h : .word n ∉ ts) :
  associates n ts = false
  := by
  induction ts with
  | nil => rfl
  | cons t ts ih =>
    rw [List.mem_cons, not_or] at h
    simp [associates, ih h.2, Ne.symm h.1]

/-! ### Silent tokens -/

/-- No names at all: tokens are silent about them whenever they begin with no arrow. -/
def noNames : Text → Prop := fun _ => False

@[simp]
theorem not_noNames (n : Text) :
  ¬noNames n
  := id

/-- Tokens are silent about names when they begin with no arrow and associate none of them. -/
structure Silent (names : Text → Prop) (ts : List Token) : Prop where
  head : ts.head? ≠ some .arrow
  associates : ∀ n, names n → Check.associates n ts = false

namespace Silent

theorem of_not_mem (h : .arrow ∉ ts) :
  Silent names ts
  := by
  constructor
  · intro head
    apply h (List.mem_of_head? head)
  · intro n _
    apply not_associates_of_not_mem h

theorem append (ha : Silent names a) (hb : Silent names b) :
  Silent names (a ++ b)
  := by
  constructor
  · cases a with
    | nil => apply hb.head
    | cons t a => apply ha.head
  · intro n hn
    have apart : (b.head? == some .arrow) = false := beq_eq_false_iff_ne.2 hb.head
    simp [associates_append, ha.associates n hn, hb.associates n hn, apart]

/-- Tokens behind one that is neither an arrow nor one of the names may begin with an arrow. -/
theorem append_of_last (ha : Silent names (a ++ [m])) (hm : ∀ n, names n → m ≠ .word n)
    (hb : ∀ n, names n → Check.associates n b = false) :
  Silent names (a ++ [m] ++ b)
  := by
  constructor
  · intro head
    apply ha.head
    cases a <;> exact head
  · intro n hn
    have last : ((a ++ [m]).getLast? == some (.word n)) = false := by
      rw [List.getLast?_concat, beq_eq_false_iff_ne]
      intro eq
      apply hm n hn (Option.some.inj eq)
    rw [associates_append, ha.associates n hn, hb n hn, last]
    rfl

end Silent

/-! ### Pieces and phrases -/

/-- A piece can be cut off from what follows, and it is silent. -/
structure Piece (names : Text → Prop) (t : Text) : Prop where
  cut : Cut t
  silent : Silent names (tokens t)

/-- A phrase can be cut off from what follows a stop, and it is silent. -/
structure Phrase (names : Text → Prop) (t : Text) : Prop where
  cut : CutAtStop t
  silent : Silent names (tokens t)

/-- A quiet text can be cut off from what follows a stop and associates none of the names, but it
may begin with an arrow. -/
structure Quiet (names : Text → Prop) (t : Text) : Prop where
  cut : CutAtStop t
  associates : ∀ n, names n → Check.associates n (tokens t) = false

theorem quiet_of_not_mem (ht : Sealed t) (arrow : '>' ∉ t) :
  Quiet names t
  := by
  use ht.cutAtStop
  intro n _
  apply not_associates_of_not_mem
  rw [ht.tokens]
  apply arrow_not_mem_tokenizeFrom _ _ _ arrow

theorem quiet_word (hw : ∀ c ∈ w, isWordChar c) :
  Quiet names w
  := by
  apply quiet_of_not_mem (sealed_of_isWordChar hw)
  intro arrow
  apply absurd (hw '>' arrow) (by decide)

theorem Quiet.phrase (ht : Quiet names t) (head : (tokens t).head? ≠ some .arrow) :
  Phrase names t
  := ⟨ht.cut, head, ht.associates⟩

theorem Phrase.quiet (ht : Phrase names t) :
  Quiet names t
  := ⟨ht.cut, ht.silent.associates⟩

namespace Piece

theorem nil :
  Piece names []
  := ⟨Cut.nil, Silent.of_not_mem (by decide)⟩

theorem stop (hc : c ∈ stops) :
  Piece names [c]
  := by
  have mark : ∀ c ∈ stops, .arrow ∉ tokens [c] := by decide
  use cut_stop hc
  apply Silent.of_not_mem (mark c hc)

/-- A comment and the end of its line make a piece without tokens. -/
theorem comment (ht : '\n' ∉ t) :
  Piece names ('-' :: '-' :: t ++ ['\n'])
  := by
  have read := tokens_comment ht []
  constructor
  · intro r
    rw [List.append_assoc, List.singleton_append, tokens_comment ht r, read]
    rfl
  · rw [read]
    apply Silent.of_not_mem (by decide)

theorem append (hs : Piece names s) (ht : Piece names t) :
  Piece names (s ++ t)
  := by
  use hs.cut.append ht.cut
  rw [hs.cut]
  apply hs.silent.append ht.silent

theorem flatten {ts : List Text} (h : ∀ t ∈ ts, Piece names t) :
  Piece names ts.flatten
  := by
  induction ts with
  | nil => apply nil
  | cons t ts ih =>
    apply (h t List.mem_cons_self).append
    apply ih fun t ht => h t (List.mem_cons_of_mem _ ht)

theorem append_phrase (hs : Piece names s) (ht : Phrase names t) :
  Phrase names (s ++ t)
  := by
  use hs.cut.append_cutAtStop ht.cut
  rw [hs.cut]
  apply hs.silent.append ht.silent

theorem phrase (ht : Piece names t) :
  Phrase names t
  := ⟨ht.cut.cutAtStop, ht.silent⟩

/-- A quiet text makes a phrase with a piece before it that ends with no name. -/
theorem append_quiet (hs : Piece names s) (last : tokens s = a ++ [m])
    (hm : ∀ n, names n → m ≠ .word n) (ht : Quiet names t) :
  Phrase names (s ++ t)
  := by
  have silent := hs.silent
  use hs.cut.append_cutAtStop ht.cut
  rw [last] at silent
  rw [hs.cut, last]
  apply silent.append_of_last hm ht.associates

end Piece

namespace Phrase

/-- A text of calm characters without an arrow is a phrase. -/
theorem of_isCalm (ht : ∀ c ∈ t, IsCalm c ∧ c ≠ '>') :
  Phrase names t
  := by
  have calm := sealed_of_isCalm fun c hc => (ht c hc).1
  have arrow : '>' ∉ t := fun mem => (ht '>' mem).2 rfl
  apply (quiet_of_not_mem calm arrow).phrase
  intro head
  have mem := List.mem_of_head? head
  rw [calm.tokens] at mem
  apply arrow_not_mem_tokenizeFrom _ _ _ arrow mem

theorem word (hw : ∀ c ∈ w, isWordChar c) :
  Phrase names w
  := by
  apply of_isCalm
  intro c hc
  use isCalm_of_isWordChar (hw c hc)
  rintro rfl
  apply absurd (hw '>' hc) (by decide)

/-- A piece that begins with a stop follows a phrase. -/
theorem append_cons (hs : Phrase names s) (hc : c ∈ stops) (ht : Piece names (c :: t)) :
  Piece names (s ++ c :: t)
  := by
  use hs.cut.append_cons hc ht.cut
  rw [hs.cut _ (by simpa using hc)]
  apply hs.silent.append ht.silent

theorem append_piece (hs : Phrase names s) (ht : Piece names t) (ne : t ≠ [])
    (first : ∀ c ∈ t.head?, c ∈ stops) :
  Piece names (s ++ t)
  := by
  cases t with
  | nil => contradiction
  | cons c t => apply hs.append_cons (first c rfl) ht

/-- A stop behind a phrase makes it a piece. -/
theorem append_stop (hs : Phrase names s) (hc : c ∈ stops) :
  Piece names (s ++ [c])
  := hs.append_cons hc (Piece.stop hc)

theorem append (hs : Phrase names s) (ht : Phrase names t) (first : ∀ c ∈ t.head?, c ∈ stops) :
  Phrase names (s ++ t)
  := by
  use hs.cut.append ht.cut first
  rw [hs.cut t first]
  apply hs.silent.append ht.silent

end Phrase

/-- A text is plain when its characters are calm, none of them belongs to an arrow, and the last
one is a stop. -/
def IsPlain (t : Text) : Prop :=
  (∀ c ∈ t, IsCalm c ∧ c ≠ '>') ∧ t.getLast?.any (· ∈ stops)

instance : DecidablePred IsPlain := fun _ => inferInstanceAs (Decidable (_ ∧ _))

theorem Piece.of_isPlain (ht : IsPlain t) :
  Piece names t
  := by
  obtain ⟨calm, last⟩ := ht
  obtain ⟨c, hlast, hc⟩ := Option.any_eq_true _ _ |>.1 last
  obtain ⟨s, rfl⟩ := List.getLast?_eq_some_iff.1 hlast
  apply Phrase.append_stop _ (of_decide_eq_true hc)
  apply Phrase.of_isCalm fun c hc => calm c (List.mem_append_left [_] hc)

/-! ### Spaces and headings -/

theorem Piece.spaces (k : Nat) :
  Piece names (Text.spaces k)
  := by
  induction k with
  | zero => apply Piece.nil
  | succ k ih => apply (Piece.stop (c := ' ') (by decide)).append ih

/-- Spaces before a text are not seen. -/
theorem tokens_spaces_append (k : Nat) (t : Text) :
  tokens (Text.spaces k ++ t) = tokens t
  := by
  induction k with
  | zero => rfl
  | succ k ih => rwa [Text.spaces, List.replicate_succ, List.cons_append, tokens_stop (by decide)]

/-- Spaces before a mark are not seen. -/
theorem tokenizeFrom_spaces_append {r : Text}
    (hr : ∀ word, tokenizeFrom false word r = wordToken word ++ ts) (k : Nat) (word : Text) :
  tokenizeFrom false word (Text.spaces k ++ r) = wordToken word ++ ts
  := by
  induction k generalizing word with
  | zero => apply hr
  | succ k ih =>
    rw [Text.spaces, List.replicate_succ, List.cons_append, tokenizeFrom_space]
    congr 1
    apply ih []

theorem tokenizeFrom_colon (word : Text) :
  tokenizeFrom false word [':'] = wordToken word ++ [.colon]
  := by
  rw [tokenizeFrom_mark (by decide) (by simp [StandsAlone]), List.append_assoc]
  rfl

theorem tokenizeFrom_arrow (word : Text) :
  tokenizeFrom false word ['=', '>'] = wordToken word ++ [.arrow]
  := tokenizeFrom_pair .arrow word []

/-- The token of a word that is not empty. -/
theorem IsWord.wordToken_lower (hw : IsWord w) :
  wordToken w.lower = [.word w.lower]
  := by
  rw [wordToken, if_neg]
  simpa [Text.lower] using hw.ne_nil

/-- A name with spaces and a mark behind it can be cut off when a space follows, and its tokens
are the name and the mark. -/
theorem cut_heading (hw : IsWord w) (k : Nat) (mark : Text)
    (hmark : ∀ c ∈ mark, IsCalm c)
    (read : ∀ word, tokenizeFrom false word mark = wordToken word ++ [m]) :
  Cut (w ++ Text.spaces k ++ mark ++ [' ']) ∧
    tokens (w ++ Text.spaces k ++ mark ++ [' ']) = [.word w.lower, m]
  := by
  have whole : Sealed (w ++ Text.spaces k ++ mark) := by
    apply sealed_of_isCalm
    intro c hc
    rcases List.mem_append.1 hc with hc | hc
    · rcases List.mem_append.1 hc with hc | hc
      · apply isCalm_of_isWordChar (hw.forall_mem c hc)
      · rw [Text.eq_space_of_mem_spaces hc]
        decide
    · apply hmark c hc
  have space : ∀ c ∈ [' '].head?, c ∈ stops := by decide
  constructor
  · apply whole.cutAtStop.append_cons (by decide) (cut_stop (by decide))
  · rw [whole.tokens_append space, tokenize, List.append_assoc, tokenizeFrom_word hw.forall_mem,
      tokenizeFrom_spaces_append read, List.nil_append, IsWord.wordToken_lower hw]
    rfl

end Testbench.Check
