import Testbench.Proofs.Nesting.Word
import Testbench.Vhdl.Normal
import Mathlib.Data.List.Chain

/-!
# Tidy texts

A text is `Tidy` when no comment begins in it, its only separators are spaces and no two
of them stand behind one another.  What `normalize` leaves is tidy, and so is every part of
it.  In turn, `normalize` keeps a tidy text and writes one space for each run of separators
between tidy texts: `Squeezes s t` says that it writes `t` for `s` within a longer text.
-/

namespace Testbench.Vhdl

variable {s t r s' t' w mark : Text} {a b c : Char} {region : Region} {g : Gap}

/-- A character may stand behind another one in a tidy text: the two do not begin a comment
and are not both separators. -/
def Joins (a b : Char) : Prop :=
  ¬(a = '-' ∧ b = '-') ∧ ¬(a = '/' ∧ b = '*') ∧ ¬(isSeparator a ∧ isSeparator b)

instance : DecidableRel Joins := fun _ _ => inferInstanceAs (Decidable (_ ∧ _))

/-- A text is tidy when no comment begins in it and its separators are single spaces. -/
structure Tidy (t : Text) : Prop where
  chain : t.IsChain Joins
  space : ∀ c ∈ t, isSeparator c → c = ' '

instance : DecidablePred Tidy := fun t =>
  decidable_of_iff (t.IsChain Joins ∧ ∀ c ∈ t, isSeparator c → c = ' ')
    ⟨fun h => ⟨h.1, h.2⟩, fun h => ⟨h.1, h.2⟩⟩

theorem joins_space (h : ¬isSeparator c) :
  Joins ' ' c ∧ Joins c ' '
  := by
  constructor
  · simp [Joins, h]
  · simp [Joins, h]

namespace Tidy

theorem nil :
  Tidy []
  := ⟨List.isChain_nil, by simp⟩

/-- A part of a tidy text is tidy. -/
theorem of_isInfix (h : Tidy t) (part : s <:+: t) :
  Tidy s
  := by
  constructor
  · obtain ⟨before, behind, rfl⟩ := part
    apply h.chain.left_of_append.right_of_append
  · intro c hc
    apply h.space c (part.subset hc)

theorem trim (h : Tidy t) :
  Tidy t.trim
  := h.of_isInfix (Text.isInfix_trim t)

/-- In a tidy text each character may stand behind the one before it. -/
theorem not_isInfix (h : Tidy t) (hab : ¬Joins a b) :
  ¬[a, b] <:+: t
  := by
  intro part
  apply hab
  simpa using (h.of_isInfix part).chain

/-- Tidy texts behind one another are tidy if the characters where they meet may be. -/
theorem append (hs : Tidy s) (ht : Tidy t)
    (meet : ∀ a ∈ s.getLast?, ∀ b ∈ t.head?, Joins a b) :
  Tidy (s ++ t)
  := by
  constructor
  · apply List.IsChain.append hs.chain ht.chain meet
  · intro c hc
    rcases List.mem_append.1 hc with hc | hc
    · apply hs.space c hc
    · apply ht.space c hc

end Tidy

/-! ### Steps of normalization -/

/-- A separator widens the gap. -/
theorem normalizeFrom_of_isSeparator (hc : isSeparator c) :
  normalizeFrom .code g (c :: r) = normalizeFrom .code g.widen r
  := by
  rw [normalizeFrom, if_pos hc]
  · rintro r rfl
    exact absurd hc (by decide)
  · rintro r rfl
    exact absurd hc (by decide)

/-- A character that is no separator and begins no comment is kept. -/
theorem normalizeFrom_of_joins (hc : ¬isSeparator c) (h : ∀ d ∈ r.head?, Joins c d) :
  normalizeFrom .code g (c :: r) = g.space ++ c :: normalizeFrom .code .closed r
  := by
  rw [normalizeFrom, if_neg hc]
  · rintro r rfl rfl
    exact absurd (h '-' rfl).1 (by decide)
  · rintro r rfl rfl
    exact absurd (h '*' rfl).2.1 (by decide)

/-- A character other than a line feed does not end a comment on a line. -/
theorem normalizeFrom_lineComment (hc : c ≠ '\n') (g : Gap) (r : Text) :
  normalizeFrom .lineComment g (c :: r) = normalizeFrom .lineComment g r
  := by
  rw [normalizeFrom]
  apply hc

theorem normalizeFrom_lineEnd (g : Gap) (r : Text) :
  normalizeFrom .lineComment g ('\n' :: r) = normalizeFrom .code g r
  := by rw [normalizeFrom]

/-- A character that does not begin `*/` does not end a comment. -/
theorem normalizeFrom_blockComment (h : c = '*' → r.head? ≠ some '/') :
  normalizeFrom .blockComment g (c :: r) = normalizeFrom .blockComment g r
  := by
  rw [normalizeFrom]
  rintro r' star rfl
  apply h star rfl

/-- A mark with which a comment begins in code. -/
inductive Opens : Text → Region → Prop
  | line : Opens ['-', '-'] .lineComment
  | block : Opens ['/', '*'] .blockComment

/-- A mark with which a comment ends. -/
inductive Closes : Region → Text → Prop
  | line : Closes .lineComment ['\n']
  | block : Closes .blockComment ['*', '/']

theorem Closes.ne_code (h : Closes region mark) :
  region ≠ .code
  := by
  cases h <;> decide

/-- A mark with which a comment begins widens the gap. -/
theorem normalizeFrom_of_opens (h : Opens mark region) (g : Gap) (r : Text) :
  normalizeFrom .code g (mark ++ r) = normalizeFrom region g.widen r
  := by
  cases h <;> rfl

theorem normalizeFrom_of_closes (h : Closes region mark) (g : Gap) (r : Text) :
  normalizeFrom region g (mark ++ r) = normalizeFrom .code g r
  := by
  cases h <;> rfl

/-- A character in a comment is not written. -/
theorem normalizeFrom_of_comment (comment : region ≠ .code)
    (inside : ∀ mark, Closes region mark → ¬mark <+: c :: r) (g : Gap) :
  normalizeFrom region g (c :: r) = normalizeFrom region g r
  := by
  cases region with
  | code => contradiction
  | lineComment =>
    apply normalizeFrom_lineComment
    rintro rfl
    apply inside _ .line ⟨r, rfl⟩
  | blockComment =>
    apply normalizeFrom_blockComment
    rintro rfl slash
    obtain ⟨r', rfl⟩ := List.head?_eq_some_iff.1 slash
    apply inside _ .block ⟨r', rfl⟩

/-- What holds of every text when it holds behind the mark of a comment, a separator, a character
that is kept and a character in a comment as soon as it holds of the rest. -/
@[elab_as_elim]
theorem normalizeFrom_induction {motive : Region → Gap → Text → Prop}
    (nil : ∀ region g, motive region g [])
    (opens : ∀ g mark region r, Opens mark region →
      motive region g.widen r → motive .code g (mark ++ r))
    (separator : ∀ g c r, isSeparator c → motive .code g.widen r → motive .code g (c :: r))
    (kept : ∀ g c r, ¬isSeparator c → (∀ d ∈ r.head?, Joins c d) →
      motive .code .closed r → motive .code g (c :: r))
    (closes : ∀ region g mark r, Closes region mark →
      motive .code g r → motive region g (mark ++ r))
    (comment : ∀ region g c r, region ≠ .code → (∀ mark, Closes region mark → ¬mark <+: c :: r) →
      motive region g r → motive region g (c :: r))
    (region : Region) (g : Gap) (t : Text) :
  motive region g t
  := by
  fun_induction normalizeFrom region g t with
  | case1 region g => apply nil
  | case2 g r ih => apply opens g ['-', '-'] .lineComment r .line ih
  | case3 g r ih => apply opens g ['/', '*'] .blockComment r .block ih
  | case4 g c r _ _ letter ih => apply separator g c r letter ih
  | case5 g c r noLine noBlock letter ih =>
    apply kept g c r letter _ ih
    intro d hd
    obtain ⟨r', rfl⟩ := List.head?_eq_some_iff.1 hd
    refine ⟨?_, ?_, by simp [letter]⟩
    · rintro ⟨rfl, rfl⟩
      apply noLine r' rfl rfl
    · rintro ⟨rfl, rfl⟩
      apply noBlock r' rfl rfl
  | case6 g r ih => apply closes .lineComment g ['\n'] r .line ih
  | case7 g c r other ih =>
    apply comment .lineComment g c r (by decide) _ ih
    rintro _ ⟨⟩ ⟨r', eq⟩
    apply other (List.cons.inj eq).1.symm
  | case8 g r ih => apply closes .blockComment g ['*', '/'] r .block ih
  | case9 g c r other ih =>
    apply comment .blockComment g c r (by decide) _ ih
    rintro _ ⟨⟩ ⟨r', eq⟩
    obtain ⟨star, slash⟩ := List.cons.inj eq
    apply other r' star.symm slash.symm

/-! ### Normal source is tidy -/

/-- What is written first for source that is read behind a gap: no separator at the start,
a space behind an open gap, and behind a closed one what stands in the source, or a
space. -/
def Gap.Begins (g : Gap) (region : Region) (source out : Text) : Prop :=
  match g with
  | .start => ∀ c ∈ out.head?, ¬isSeparator c
  | .opened => ∀ c ∈ out.head?, c = ' '
  | .closed => region = .code → ∀ c ∈ out.head?, c = ' ' ∨ source.head? = some c

theorem Gap.Begins.of_widen {source out : Text}
    (h : g.widen.Begins region source out) (region' : Region) (source' : Text) :
  g.Begins region' source' out
  := by
  cases g with
  | start => apply h
  | opened => apply h
  | closed =>
    intro _ c hc
    left
    apply h c hc

theorem Gap.Begins.of_comment {region' : Region} {source source' out : Text}
    (h : g.Begins region source out) (comment : region' ≠ .code) :
  g.Begins region' source' out
  := by
  cases g with
  | start => apply h
  | opened => apply h
  | closed =>
    intro code
    apply absurd code comment

/-- A character that is kept is tidy in front of what is written behind it. -/
theorem Tidy.cons_of_begins (ht : Tidy t) (hc : ¬isSeparator c) (joins : ∀ d ∈ r.head?, Joins c d)
    (begins : Gap.closed.Begins .code r t) :
  Tidy (c :: t)
  := by
  apply Tidy.append (s := [c]) ⟨by simp, by simp [hc]⟩ ht
  intro a ha d hd
  obtain rfl : c = a := by simpa using ha
  rcases begins rfl d hd with rfl | source
  · apply (joins_space hc).2
  · apply joins d source

/-- Normal source is tidy, whatever is read before it. -/
theorem tidy_normalizeFrom (region : Region) (g : Gap) (t : Text) :
  Tidy (normalizeFrom region g t) ∧ g.Begins region t (normalizeFrom region g t)
  := by
  induction region, g, t using normalizeFrom_induction with
  | nil region g =>
    rw [normalizeFrom]
    use Tidy.nil
    cases g <;> simp [Gap.Begins]
  | opens g mark region r begins ih =>
    rw [normalizeFrom_of_opens begins]
    use ih.1, ih.2.of_widen _ _
  | separator g c r separator ih =>
    rw [normalizeFrom_of_isSeparator separator]
    use ih.1, ih.2.of_widen _ _
  | kept g c r letter joins ih =>
    rw [normalizeFrom_of_joins letter joins]
    have kept := ih.1.cons_of_begins letter joins ih.2
    cases g with
    | start =>
      use kept
      simp [Gap.Begins, Gap.space, letter]
    | closed =>
      use kept
      simp [Gap.Begins, Gap.space]
    | opened =>
      constructor
      · apply Tidy.append (s := [' ']) (by decide) kept
        intro a ha d hd
        obtain rfl : ' ' = a := by simpa using ha
        obtain rfl : c = d := by simpa using hd
        apply (joins_space letter).1
      · simp [Gap.Begins, Gap.space]
  | closes region g mark r ends ih =>
    rw [normalizeFrom_of_closes ends]
    use ih.1, ih.2.of_comment ends.ne_code
  | comment region g c r comment inside ih =>
    rw [normalizeFrom_of_comment comment inside]
    use ih.1, ih.2.of_comment comment

/-- Normal source is tidy. -/
theorem tidy_normalize (t : Text) :
  Tidy (normalize t)
  := (tidy_normalizeFrom .code .start t).1

/-! ### Normalizing tidy texts -/

/-- Within a longer text that goes on behind `s` without completing a comment, `normalize`
writes `t` for `s`. -/
def Squeezes (s t : Text) : Prop :=
  ∀ r, (∀ c ∈ r.head?, c ≠ '-' ∧ c ≠ '*') →
    normalizeFrom .code .closed (s ++ r) = t ++ normalizeFrom .code .closed r

/-- A first character of a tidy text may be followed by what stands behind it. -/
theorem Tidy.joins (h : Tidy (c :: s)) (hc : ¬isSeparator c)
    (hr : ∀ c ∈ r.head?, c ≠ '-' ∧ c ≠ '*') :
  ∀ d ∈ (s ++ r).head?, Joins c d
  := by
  intro d hd
  cases s with
  | nil =>
    obtain ⟨dash, star⟩ := hr d hd
    simp [Joins, hc, dash, star]
  | cons e s =>
    obtain rfl : e = d := by simpa using hd
    apply (List.isChain_cons_cons.1 h.chain).1

/-- A tidy text that ends with no separator is kept. -/
theorem Tidy.squeezes (h : Tidy s) (ends : ∀ c ∈ s.getLast?, ¬isSeparator c) :
  Squeezes s s
  := by
  intro r hr
  induction s with
  | nil => rfl
  | cons c s ih =>
    have rest := h.of_isInfix (List.suffix_cons c s).isInfix
    have further : ∀ d ∈ s.getLast?, ¬isSeparator d := by
      intro d hd
      apply ends
      cases s with
      | nil => simp at hd
      | cons e s => simpa using hd
    by_cases separator : isSeparator c
    · obtain rfl := h.space c List.mem_cons_self separator
      cases s with
      | nil => exact absurd separator (ends ' ' rfl)
      | cons d s =>
        have letter : ¬isSeparator d :=
          fun hd => (List.isChain_cons_cons.1 h.chain).1.2.2 ⟨separator, hd⟩
        have next := ih rest further
        rw [List.cons_append, normalizeFrom_of_joins letter (rest.joins letter hr)] at next
        rw [List.cons_append, List.cons_append, normalizeFrom_of_isSeparator separator,
          normalizeFrom_of_joins letter (rest.joins letter hr)]
        apply congrArg (' ' :: ·) next
    · rw [List.cons_append, normalizeFrom_of_joins separator (h.joins separator hr),
        ih rest further]
      rfl

/-- Separators before what is kept are written as one space. -/
theorem normalizeFrom_separators_append (hw : ∀ c ∈ w, isSeparator c) (ne : w ≠ [])
    (hc : ¬isSeparator c) (h : ∀ d ∈ r.head?, Joins c d) :
  normalizeFrom .code .closed (w ++ c :: r) = ' ' :: normalizeFrom .code .closed (c :: r)
  := by
  have widened : ∀ w : Text, (∀ c ∈ w, isSeparator c) →
      normalizeFrom .code .opened (w ++ c :: r) = ' ' :: normalizeFrom .code .closed (c :: r) := by
    intro w hw
    induction w with
    | nil =>
      rw [List.nil_append, normalizeFrom_of_joins hc h, normalizeFrom_of_joins hc h]
      rfl
    | cons d w ih =>
      rw [List.cons_append, normalizeFrom_of_isSeparator (hw d List.mem_cons_self)]
      apply ih fun c hc => hw c (List.mem_cons_of_mem d hc)
  cases w with
  | nil => contradiction
  | cons d w =>
    rw [List.cons_append, normalizeFrom_of_isSeparator (hw d List.mem_cons_self)]
    apply widened w fun c hc => hw c (List.mem_cons_of_mem d hc)

/-- Texts that are written behind one another are squeezed one by one, if the second does not
complete a comment. -/
theorem Squeezes.append (hs : Squeezes s t) (hs' : Squeezes s' t')
    (meet : ∀ c ∈ s'.head?, c ≠ '-' ∧ c ≠ '*') :
  Squeezes (s ++ s') (t ++ t')
  := by
  intro r hr
  rw [List.append_assoc, hs, hs' r hr, List.append_assoc]
  cases s' with
  | nil => apply hr
  | cons c s' => apply meet

/-! ### Solid texts -/

/-- A text is solid when it is tidy, not empty and trimmed. -/
structure Solid (t : Text) : Prop where
  tidy : Tidy t
  ne_nil : t ≠ []
  trim : t.trim = t

instance : DecidablePred Solid := fun t =>
  decidable_of_iff (Tidy t ∧ t ≠ [] ∧ t.trim = t)
    ⟨fun h => ⟨h.1, h.2.1, h.2.2⟩, fun h => ⟨h.1, h.2, h.3⟩⟩

/-- A separator is blank. -/
theorem isBlank_of_isSeparator (hc : isSeparator c) :
  isBlank c
  := by
  simp only [isSeparator, Bool.or_eq_true, beq_iff_eq] at hc
  rcases hc with (((((rfl | rfl) | rfl) | rfl) | rfl) | rfl) | rfl <;> rfl

namespace Solid

/-- A solid text begins with no separator. -/
theorem first (h : Solid t) :
  ∀ c ∈ t.head?, ¬isSeparator c
  := by
  intro c hc separator
  apply (Text.trim_eq_self_iff.1 h.trim).1 c hc (isBlank_of_isSeparator separator)

/-- A solid text ends with no separator. -/
theorem last (h : Solid t) :
  ∀ c ∈ t.getLast?, ¬isSeparator c
  := by
  intro c hc separator
  apply (Text.trim_eq_self_iff.1 h.trim).2 c hc (isBlank_of_isSeparator separator)

/-- Solid texts behind one another are solid if the characters where they meet may be. -/
theorem append (hs : Solid s) (ht : Solid t)
    (meet : ∀ a ∈ s.getLast?, ∀ b ∈ t.head?, Joins a b) :
  Solid (s ++ t)
  := by
  refine ⟨hs.tidy.append ht.tidy meet, by simp [hs.ne_nil], ?_⟩
  apply Text.trim_append_append hs.trim hs.ne_nil ht.trim ht.ne_nil []

/-- Solid texts with a space between them are solid. -/
theorem spaced (hs : Solid s) (ht : Solid t) :
  Solid (s ++ ' ' :: t)
  := by
  refine ⟨?_, by simp, ?_⟩
  · apply hs.tidy.append
    · apply Tidy.append (s := [' ']) (by decide) ht.tidy
      intro a ha b hb
      obtain rfl : ' ' = a := by simpa using ha
      apply (joins_space (ht.first b hb)).1
    · intro a ha b hb
      obtain rfl : ' ' = b := by simpa using hb
      apply (joins_space (hs.last a ha)).2
  · apply Text.trim_append_append hs.trim hs.ne_nil ht.trim ht.ne_nil [' ']

/-- A solid text is kept. -/
theorem squeezes (h : Solid s) :
  Squeezes s s
  := h.tidy.squeezes h.last

/-- Separators before a solid text are written as one space. -/
theorem squeezes_append (h : Solid s) (hw : ∀ c ∈ w, isSeparator c) (ne : w ≠ []) :
  Squeezes (w ++ s) (' ' :: s)
  := by
  intro r hr
  have next := h.squeezes r hr
  have first := h.first
  have tidy := h.tidy
  cases s with
  | nil => apply absurd rfl h.ne_nil
  | cons c s =>
    have letter := first c rfl
    rw [List.append_assoc, List.cons_append,
      normalizeFrom_separators_append hw ne letter (tidy.joins letter hr)]
    apply congrArg (' ' :: ·) next

end Solid

/-- What follows a word character is not joined to it as a comment or a separator. -/
theorem joins_of_isWordChar (hc : isWordChar c) :
  ¬isSeparator c ∧ ∀ d, Joins c d
  := by
  have letter : ¬isSeparator c := by
    intro separator
    apply not_isWordChar_of_isBlank (isBlank_of_isSeparator separator) hc
  use letter
  intro d
  refine ⟨?_, ?_, by simp [letter]⟩
  · rintro ⟨rfl, -⟩
    exact absurd hc (by decide)
  · rintro ⟨rfl, -⟩
    exact absurd hc (by decide)

/-- Words are solid. -/
theorem IsWord.solid (hs : IsWord s) :
  Solid s
  := by
  refine ⟨⟨?_, ?_⟩, hs.ne_nil, hs.trim⟩
  · have chars := hs.forall_mem
    clear hs
    induction s with
    | nil => apply List.isChain_nil
    | cons c s ih =>
      rw [List.isChain_cons]
      constructor
      · intro d _
        apply (joins_of_isWordChar (chars c List.mem_cons_self)).2
      · apply ih fun d hd => chars d (List.mem_cons_of_mem c hd)
  · intro c hc separator
    apply absurd separator (joins_of_isWordChar (hs.forall_mem c hc)).1

/-- Separators at the end are not written. -/
theorem normalizeFrom_separators (hw : ∀ c ∈ w, isSeparator c) :
  normalizeFrom .code g w = []
  := by
  induction w generalizing g with
  | nil => rfl
  | cons c w ih =>
    rw [normalizeFrom_of_isSeparator (hw c List.mem_cons_self)]
    apply ih fun d hd => hw d (List.mem_cons_of_mem c hd)

/-- The normal form of a text that begins with a word and ends with separators. -/
theorem Squeezes.normalize (h : Squeezes s t) (hs : s.head?.any isWordChar)
    (hw : ∀ c ∈ w, isSeparator c) :
  normalize (s ++ w) = t
  := by
  have closed : ∀ d ∈ w.head?, d ≠ '-' ∧ d ≠ '*' := by
    intro d hd
    have separator := hw d (List.mem_of_mem_head? hd)
    constructor
    · rintro rfl
      exact absurd separator (by decide)
    · rintro rfl
      exact absurd separator (by decide)
  have written := h w closed
  rw [normalizeFrom_separators hw, List.append_nil] at written
  cases s with
  | nil => simp at hs
  | cons c s =>
    obtain ⟨letter, joins⟩ := joins_of_isWordChar hs
    rw [List.cons_append, normalizeFrom_of_joins letter fun d _ => joins d] at written
    rw [Vhdl.normalize, List.cons_append, normalizeFrom_of_joins letter fun d _ => joins d,
      ← written]
    rfl

end Testbench.Vhdl
