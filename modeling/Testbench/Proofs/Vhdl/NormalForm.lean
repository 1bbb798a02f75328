import Testbench.Proofs.Vhdl.Normal

/-!
# Normal forms

What `normalize` makes of source can be told in two phases.  From left to right, the source is
cut into comments and single characters of code, and a space is put in the place of each comment;
then the words between the separators are written with single spaces between them.  What comes
out `IsNormal`: no comment begins in it and its separators are single spaces between words.  These
are exactly the texts that `normalize` keeps.
-/

namespace Testbench.Vhdl

variable {s t r : Text} {c : Char} {g : Gap}

/-! ### Words -/

/-- The words of a text are what stands between its separators and is not empty. -/
def words (t : Text) : List Text := (t.splitOnP isSeparator).filter (· ≠ [])

theorem words_cons_of_isSeparator (hc : isSeparator c) :
  words (c :: t) = words t
  := by
  rw [words, List.splitOnP_cons_eq_if_modifyHead, if_pos hc]
  rfl

/-- A character of a word begins the first word of a text, which ends at the first separator. -/
theorem words_cons (hc : ¬isSeparator c) :
  words (c :: t) =
    (c :: t.takeWhile (!isSeparator ·)) :: words (t.dropWhile (!isSeparator ·))
  := by
  have letters : ∀ d ∈ c :: t.takeWhile (!isSeparator ·), isSeparator d = false := by
    rw [List.forall_mem_cons]
    constructor
    · simpa using hc
    · intro d hd
      simpa using List.mem_takeWhile_imp hd
  have first : (c :: t.takeWhile (!isSeparator ·)).splitOnP isSeparator =
      [c :: t.takeWhile (!isSeparator ·)] :=
    List.splitOnP_eq_singleton letters
  have whole : c :: t = (c :: t.takeWhile (!isSeparator ·)) ++ t.dropWhile (!isSeparator ·) := by
    rw [List.cons_append, List.takeWhile_append_dropWhile]
  cases rest : t.dropWhile (!isSeparator ·) with
  | nil =>
    rw [rest, List.append_nil] at whole
    conv_lhs => rw [whole, words, first]
    rfl
  | cons d rest' =>
    have separator : isSeparator d := by
      have := List.head?_dropWhile_not (!isSeparator ·) t
      rw [rest] at this
      simpa using this
    rw [rest] at whole
    conv_lhs => rw [whole, words, List.splitOnP_append_cons _ _ separator, first]
    rw [words_cons_of_isSeparator separator]
    rfl

/-- The first of some texts stands before the space with which each further one begins. -/
theorem join_space_cons (w : Text) (ws : List Text) :
  Text.join [' '] (w :: ws) = w ++ ws.flatMap (' ' :: ·)
  := by
  induction ws generalizing w with
  | nil => simp [Text.join]
  | cons w' ws ih =>
    have further := ih w'
    rw [Text.join] at further ⊢
    rw [List.intercalate_cons_cons, further, List.flatMap_cons]
    simp

/-- What is written of the words of a text behind a gap: the first word joins on to what was
written before when the gap is closed. -/
def Gap.written (t : Text) : Gap → Text
  | .start => Text.join [' '] (words t)
  | .closed =>
      t.takeWhile (!isSeparator ·) ++
        (words (t.dropWhile (!isSeparator ·))).flatMap (' ' :: ·)
  | .opened => (words t).flatMap (' ' :: ·)

theorem Gap.written_cons_of_isSeparator (hc : isSeparator c) :
  g.written (c :: t) = g.widen.written t
  := by
  cases g with
  | start => simp only [widen, written, words_cons_of_isSeparator hc]
  | closed => simp [widen, written, hc, words_cons_of_isSeparator hc]
  | opened => simp only [widen, written, words_cons_of_isSeparator hc]

theorem Gap.written_cons (hc : ¬isSeparator c) :
  g.written (c :: t) = g.space ++ c :: Gap.closed.written t
  := by
  cases g with
  | start =>
    rw [written, words_cons hc, join_space_cons]
    rfl
  | closed => simp [space, written, hc]
  | opened => simp [space, written, words_cons hc]

/-! ### Cutting out comments -/

/-- A comment that stands before the rest of a text: one on a line includes the line feed that
ends it, one in delimiters includes the first `*/` behind its opening, and either takes all of
the text if it does not end. -/
inductive IsComment : Text → Text → Prop
  | line {s r : Text} : '\n' ∉ s → IsComment (['-', '-'] ++ s ++ ['\n']) r
  | lastLine {s : Text} : '\n' ∉ s → IsComment (['-', '-'] ++ s) []
  | block {s r : Text} : ¬['*', '/'] <:+: s ++ ['*'] → IsComment (['/', '*'] ++ s ++ ['*', '/']) r
  | lastBlock {s : Text} : ¬['*', '/'] <:+: s → IsComment (['/', '*'] ++ s) []

/-- What source is cut into. -/
inductive Lexeme where
  | code (c : Char)
  | comment (t : Text)

/-- The code that is left of a lexeme: a comment leaves a space. -/
def Lexeme.left : Lexeme → Text
  | code c => [c]
  | comment _ => [' ']

/-- Source is cut from left to right: a comment is cut off wherever one begins, and a single
character of code elsewhere. -/
inductive Cuts : Text → List Lexeme → Prop
  | nil : Cuts [] []
  | comment {t r : Text} {ls : List Lexeme} :
      IsComment t r → Cuts r ls → Cuts (t ++ r) (.comment t :: ls)
  | code {c : Char} {r : Text} {ls : List Lexeme} :
      ¬['-', '-'] <+: c :: r → ¬['/', '*'] <+: c :: r → Cuts r ls → Cuts (c :: r) (.code c :: ls)

/-- A line either ends at a line feed or takes all of the text. -/
theorem exists_lineEnd (t : Text) :
  ∃ s, '\n' ∉ s ∧ (t = s ∨ ∃ r, t = s ++ ['\n'] ++ r)
  := by
  by_cases mem : '\n' ∈ t
  · obtain ⟨s, r, rfl, absent⟩ := List.eq_append_cons_of_mem mem
    use s, absent
    right
    use r
    simp
  · use t, mem
    left
    rfl

/-- A text is divided at its first `*/` if it has one. -/
theorem exists_blockEnd (t : Text) :
  ¬['*', '/'] <:+: t ∨ ∃ s r, t = s ++ ['*', '/'] ++ r ∧ ¬['*', '/'] <:+: s ++ ['*']
  := by
  induction t with
  | nil =>
    left
    simp
  | cons c t ih =>
    by_cases here : ['*', '/'] <+: c :: t
    · obtain ⟨r, eq⟩ := here
      right
      use [], r, eq.symm
      simp [List.infix_cons_iff]
    · rcases ih with absent | ⟨s, r, rfl, absent⟩
      · left
        rw [List.infix_cons_iff]
        rintro (start | inside)
        · exact here start
        · exact absent inside
      · right
        use c :: s, r, rfl
        rw [List.cons_append, List.infix_cons_iff]
        rintro (start | inside)
        · apply here
          apply start.trans
          rw [← List.cons_append]
          simp
        · exact absent inside

/-- Every text can be cut. -/
theorem exists_cuts (t : Text) :
  ∃ ls, Cuts t ls
  := by
  induction h : t.length using Nat.strong_induction_on generalizing t with
  | _ n ih =>
    have further : ∀ r : Text, r.length < n → ∃ ls, Cuts r ls := fun r hr => ih _ hr r rfl
    by_cases line : ['-', '-'] <+: t
    · obtain ⟨t, rfl⟩ := line
      obtain ⟨s, absent, rfl | ⟨r, rfl⟩⟩ := exists_lineEnd t
      · have cut := Cuts.comment (.lastLine absent) .nil
        rw [List.append_nil] at cut
        exact ⟨_, cut⟩
      · obtain ⟨ls, cut⟩ := further r (by simp at h; omega)
        rw [← List.append_assoc, ← List.append_assoc]
        exact ⟨_, .comment (.line absent) cut⟩
    · by_cases block : ['/', '*'] <+: t
      · obtain ⟨t, rfl⟩ := block
        rcases exists_blockEnd t with absent | ⟨s, r, rfl, absent⟩
        · have cut := Cuts.comment (.lastBlock absent) .nil
          rw [List.append_nil] at cut
          exact ⟨_, cut⟩
        · obtain ⟨ls, cut⟩ := further r (by simp at h; omega)
          rw [← List.append_assoc, ← List.append_assoc]
          exact ⟨_, .comment (.block absent) cut⟩
      · cases t with
        | nil => exact ⟨_, .nil⟩
        | cons c r =>
          obtain ⟨ls, cut⟩ := further r (by simp at h; omega)
          exact ⟨_, .code line block cut⟩

/-- A comment on a line ends at the first line feed. -/
theorem normalizeFrom_lineComment_append (hs : '\n' ∉ s) :
  normalizeFrom .lineComment g (s ++ r) = normalizeFrom .lineComment g r
  := by
  induction s with
  | nil => rfl
  | cons c s ih =>
    rw [List.mem_cons, not_or] at hs
    rw [List.cons_append, normalizeFrom_lineComment (Ne.symm hs.1), ih hs.2]

/-- A comment in delimiters goes on as long as no `*/` has begun. -/
theorem normalizeFrom_blockComment_append (hs : ¬['*', '/'] <:+: s ++ r.take 1) :
  normalizeFrom .blockComment g (s ++ r) = normalizeFrom .blockComment g r
  := by
  induction s with
  | nil => rfl
  | cons c s ih =>
    rw [List.cons_append, List.infix_cons_iff, not_or] at hs
    obtain ⟨here, inside⟩ := hs
    rw [List.cons_append, normalizeFrom_blockComment, ih inside]
    rintro rfl next
    apply here
    rw [List.cons_prefix_cons]
    use rfl
    cases s with
    | nil => cases r <;> simp_all
    | cons d s => simp_all

/-- A comment widens the gap before what follows it. -/
theorem IsComment.normalizeFrom_append (h : IsComment t r) :
  normalizeFrom .code g (t ++ r) = normalizeFrom .code g.widen r
  := by
  cases h with
  | @line s r absent =>
    have start : normalizeFrom .code g (['-', '-'] ++ s ++ ['\n'] ++ r) =
        normalizeFrom .lineComment g.widen (s ++ '\n' :: r) := by
      simp [normalizeFrom]
    rw [start, normalizeFrom_lineComment_append absent, normalizeFrom_lineEnd]
  | @lastLine s absent =>
    have start : normalizeFrom .code g (['-', '-'] ++ s ++ []) =
        normalizeFrom .lineComment g.widen (s ++ []) := by
      simp [normalizeFrom]
    rw [start, normalizeFrom_lineComment_append absent]
    rfl
  | @block s r absent =>
    have start : normalizeFrom .code g (['/', '*'] ++ s ++ ['*', '/'] ++ r) =
        normalizeFrom .blockComment g.widen (s ++ '*' :: '/' :: r) := by
      simp [normalizeFrom]
    rw [start, normalizeFrom_blockComment_append absent, normalizeFrom]
  | @lastBlock s absent =>
    have start : normalizeFrom .code g (['/', '*'] ++ s ++ []) =
        normalizeFrom .blockComment g.widen (s ++ []) := by
      simp [normalizeFrom]
    rw [start, normalizeFrom_blockComment_append (by simpa using absent)]
    rfl

/-- What `normalize` makes of source are the words of the code that is left of it. -/
theorem Cuts.normalizeFrom_eq {ls : List Lexeme} (h : Cuts t ls) :
  normalizeFrom .code g t = g.written (ls.flatMap Lexeme.left)
  := by
  induction h generalizing g with
  | nil => cases g <;> rfl
  | comment comment _ ih =>
    rw [comment.normalizeFrom_append, ih, List.flatMap_cons]
    apply (Gap.written_cons_of_isSeparator _).symm
    rfl
  | @code c r ls noLine noBlock _ ih =>
    rw [List.flatMap_cons]
    by_cases separator : isSeparator c
    · rw [normalizeFrom_of_isSeparator separator, ih]
      apply (Gap.written_cons_of_isSeparator separator).symm
    · have joins : ∀ d ∈ r.head?, Joins c d := by
        intro d hd
        obtain ⟨r', rfl⟩ : ∃ r', r = d :: r' := by
          cases r with
          | nil => simp at hd
          | cons d' r' => use r', by simpa using hd
        refine ⟨?_, ?_, by simp [separator]⟩
        · rintro ⟨rfl, rfl⟩
          apply noLine
          use r'
          rfl
        · rintro ⟨rfl, rfl⟩
          apply noBlock
          use r'
          rfl
      rw [normalizeFrom_of_joins separator joins, ih]
      apply (Gap.written_cons separator).symm

/-- Source is normalized in two phases: it can be cut, and from every cut the words of what is
left, with single spaces between them, are what `normalize` makes of it. -/
theorem normalize_eq_join_words (t : Text) :
  (∃ ls, Cuts t ls) ∧
    ∀ ls, Cuts t ls → normalize t = Text.join [' '] (words (ls.flatMap Lexeme.left))
  := by
  use exists_cuts t
  intro ls cut
  apply cut.normalizeFrom_eq

/-- The two phases on source in which comments touch each other and what stands around them. -/
theorem normalize_touching :
  Cuts "a/*/*b**/c---d\n-/**/-" [.code 'a', .comment "/*/*b**/", .code 'c', .comment "---d\n",
      .code '-', .comment "/**/", .code '-'] ∧
    normalize "a/*/*b**/c---d\n-/**/-" = "a c - -"
  := by
  have block : IsComment "/*/*b**/" "c---d\n-/**/-" := .block (s := "/*b*".toList) (by decide)
  have line : IsComment "---d\n" "-/**/-" := .line (s := "-d".toList) (by decide)
  have empty : IsComment "/**/" "-" := .block (s := []) (by decide)
  have behind : Cuts "-/**/-" [.code '-', .comment "/**/", .code '-'] :=
    .code (by decide) (by decide) (.comment empty (.code (by decide) (by decide) .nil))
  have cut : Cuts "a/*/*b**/c---d\n-/**/-" _ :=
    .code (c := 'a') (by decide) (by decide)
      (.comment block (.code (c := 'c') (by decide) (by decide) (.comment line behind)))
  use cut
  rw [(normalize_eq_join_words _).2 _ cut]
  decide

/-! ### What is kept -/

/-- A text is normal when no comment begins in it, its separators are spaces, and these stand
neither behind one another nor at an end. -/
structure IsNormal (t : Text) : Prop where
  noLineComment : ¬['-', '-'] <:+: t
  noBlockComment : ¬['/', '*'] <:+: t
  onlySpaces : ∀ c ∈ t, isSeparator c → c = ' '
  noDoubleSpace : ¬[' ', ' '] <:+: t
  first : t.head? ≠ some ' '
  last : t.getLast? ≠ some ' '

/-- A text is normal exactly if it is tidy and neither begins nor ends with a separator. -/
theorem isNormal_iff :
  IsNormal t ↔
    Tidy t ∧ (∀ c ∈ t.head?, ¬isSeparator c) ∧ ∀ c ∈ t.getLast?, ¬isSeparator c
  := by
  constructor
  · intro h
    refine ⟨⟨?_, h.onlySpaces⟩, ?_, ?_⟩
    · rw [List.isChain_iff_forall_rel_of_append_cons_cons]
      rintro a b before behind rfl
      have part : [a, b] <:+: before ++ a :: b :: behind := ⟨before, behind, by simp⟩
      refine ⟨?_, ?_, ?_⟩
      · rintro ⟨rfl, rfl⟩
        exact h.noLineComment part
      · rintro ⟨rfl, rfl⟩
        exact h.noBlockComment part
      · rintro ⟨first, second⟩
        obtain rfl := h.onlySpaces a (part.subset (by simp)) first
        obtain rfl := h.onlySpaces b (part.subset (by simp)) second
        exact h.noDoubleSpace part
    · intro c hc separator
      obtain rfl := h.onlySpaces c (List.mem_of_mem_head? hc) separator
      exact h.first hc
    · intro c hc separator
      obtain rfl := h.onlySpaces c (List.mem_of_getLast? hc) separator
      exact h.last hc
  · rintro ⟨tidy, first, last⟩
    constructor
    case noLineComment => exact tidy.not_isInfix (by decide)
    case noBlockComment => exact tidy.not_isInfix (by decide)
    case onlySpaces => exact tidy.space
    case noDoubleSpace => exact tidy.not_isInfix (by decide)
    case first => exact fun space => first ' ' space rfl
    case last => exact fun space => last ' ' space rfl

/-- Normal source ends with no separator, whatever is read before it. -/
theorem not_isSeparator_of_getLast?_normalizeFrom (region : Region) (g : Gap) (t : Text) :
  ∀ c ∈ (normalizeFrom region g t).getLast?, ¬isSeparator c
  := by
  induction region, g, t using normalizeFrom_induction with
  | nil region g => simp [normalizeFrom]
  | opens g mark region r begins ih => rwa [normalizeFrom_of_opens begins]
  | separator g c r separator ih => rwa [normalizeFrom_of_isSeparator separator]
  | kept g c r letter joins ih =>
    rw [normalizeFrom_of_joins letter joins, List.getLast?_append_of_ne_nil _ (by simp),
      List.getLast?_cons]
    intro d hd
    cases last : (normalizeFrom .code .closed r).getLast? with
    | none =>
      obtain rfl : c = d := by simpa [last] using hd
      exact letter
    | some e =>
      obtain rfl : e = d := by simpa [last] using hd
      exact ih e last
  | closes region g mark r ends ih => rwa [normalizeFrom_of_closes ends]
  | comment region g c r comment inside ih => rwa [normalizeFrom_of_comment comment inside]

/-- What `normalize` leaves is normal. -/
theorem isNormal_normalize (t : Text) :
  IsNormal (normalize t)
  := by
  rw [isNormal_iff]
  obtain ⟨tidy, first⟩ := tidy_normalizeFrom .code .start t
  use tidy, first
  apply not_isSeparator_of_getLast?_normalizeFrom

/-- What is normal is kept. -/
theorem IsNormal.normalize_eq (h : IsNormal t) :
  normalize t = t
  := by
  obtain ⟨tidy, first, last⟩ := isNormal_iff.1 h
  have kept := tidy.squeezes last [] (by simp)
  rw [List.append_nil] at kept
  cases t with
  | nil => rfl
  | cons c r =>
    have joins : ∀ d ∈ r.head?, Joins c d := by
      have := tidy.joins (first c rfl) (r := []) (by simp)
      rwa [List.append_nil] at this
    rw [normalizeFrom_of_joins (first c rfl) joins] at kept
    rw [normalize, normalizeFrom_of_joins (first c rfl) joins]
    simpa [Gap.space, normalizeFrom] using kept

/-- The texts that `normalize` keeps are the normal ones, and it makes every text normal, so that
a second time it changes nothing. -/
theorem normalize_eq_self_iff (t : Text) :
  (normalize t = t ↔ IsNormal t) ∧ IsNormal (normalize t) ∧ normalize (normalize t) = normalize t
  := by
  refine ⟨⟨?_, IsNormal.normalize_eq⟩, isNormal_normalize t, (isNormal_normalize t).normalize_eq⟩
  intro kept
  rw [← kept]
  exact isNormal_normalize t

end Testbench.Vhdl
