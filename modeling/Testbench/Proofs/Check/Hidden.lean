import Testbench.Proofs.Check.Appended
import Testbench.Proofs.Check.Missing
import Testbench.Proofs.Vhdl.NormalForm

/-!
# What is hidden from the check of a bench

Comments are cut out before words are told from strings, and strings are left out before anything
is looked for.  Together the two hide what stands in them: behind code each break, a comment or a
line feed, leaves the same tokens, and so does each string behind code outside of a string.
-/

namespace Testbench.Check

open Vhdl

variable {s t u v x : Text} {g : Gap}

/-! ### Breaks -/

/-- A break is a comment that ends or a line feed. -/
inductive IsBreak : Text → Prop
  | line {s : Text} : '\n' ∉ s → IsBreak (['-', '-'] ++ s ++ ['\n'])
  | block {s : Text} : ¬['*', '/'] <:+: s → IsBreak (['/', '*'] ++ s ++ ['*', '/'])
  | lineFeed : IsBreak ['\n']

/-- A star behind a text ends no comment in it. -/
theorem not_isInfix_append_star (h : ¬['*', '/'] <:+: s) :
  ¬['*', '/'] <:+: s ++ ['*']
  := by
  rw [List.infix_concat_iff]
  rintro (last | inside)
  · obtain ⟨before, eq⟩ := last
    have := congrArg List.getLast? eq
    simp at this
  · apply h inside

/-- A break makes a gap in code. -/
theorem IsBreak.normalizeFrom_append (hx : IsBreak x) (v : Text) :
  normalizeFrom .code g (x ++ v) = normalizeFrom .code g.widen v
  := by
  cases hx with
  | line absent => apply (IsComment.line absent).normalizeFrom_append
  | block absent => apply (IsComment.block (not_isInfix_append_star absent)).normalizeFrom_append
  | lineFeed => apply normalizeFrom_of_isSeparator rfl

/-- Behind code the tokens of what follows a break are those that are read in or outside of the
string that is open before it, unless a dash joins the break. -/
theorem IsBreak.tokens_append_of_clear (hx : IsBreak x) (code : Region.code.after u = .code)
    (clear : Region.code.Clear u (x ++ v)) :
  tokens (u ++ (x ++ v)) = tokens u ++ tokenizeFrom (endsQuoted u) [] (normalize v)
  := by
  apply tokens_append clear
  intro g _
  rw [code]
  apply hx.normalizeFrom_append

/-- A dash behind code begins no comment with the end of it, unless the code ends with a dash. -/
theorem clear_dash (code : Region.code.after u = .code) (single : u.getLast? ≠ some '-')
    (r : Text) :
  Region.code.Clear u ('-' :: r)
  := by
  intro a ha b hb
  obtain rfl : '-' = b := by simpa using hb
  rw [code]
  constructor
  · rintro ⟨rfl, -⟩
    apply single ha
  · simp

/-- A single dash behind code is no token and begins or ends no string. -/
theorem tokens_append_dash (code : Region.code.after u = .code) (single : u.getLast? ≠ some '-') :
  tokens (u ++ ['-']) = tokens u ∧ endsQuoted (u ++ ['-']) = endsQuoted u
  := by
  obtain ⟨g, -, -, reads⟩ := exists_normalizeFrom_append .code .start u (by simp)
  have whole : normalize (u ++ ['-']) = normalize u ++ (g.space ++ ['-']) := by
    rw [Vhdl.normalize, reads _ (clear_dash code single []), code]
    rfl
  constructor
  · have unseen : ∀ q, tokenizeFrom q [] ['-'] = [] := by decide
    rw [tokens, whole, tokenize_append_gap (by decide) (by simp [Ends]), unseen, List.append_nil]
    rfl
  · rw [endsQuoted, whole, quotedAfter, List.foldl_append]
    cases g <;> simp [Gap.space, endsQuoted, quotedAfter]

/-- Behind code the tokens of what follows a break are those that are read in or outside of the
string that is open before it. -/
theorem IsBreak.tokens_append (hx : IsBreak x) (code : Region.code.after u = .code) (v : Text) :
  tokens (u ++ x ++ v) = tokens u ++ tokenizeFrom (endsQuoted u) [] (normalize v)
  := by
  rw [List.append_assoc]
  cases hx with
  | @line s absent =>
    by_cases dash : u.getLast? = some '-'
    · -- the dash and the first one of the break begin the comment already
      obtain ⟨u, rfl⟩ := List.getLast?_eq_some_iff.1 dash
      obtain ⟨before, single⟩ := Region.of_after_append_dash code
      have longer : IsBreak (['-', '-'] ++ '-' :: s ++ ['\n']) := .line (by simpa using absent)
      have same := longer.tokens_append_of_clear before (clear_dash before single (_ ++ v))
      obtain ⟨unseen, open'⟩ := tokens_append_dash before single
      rw [unseen, open', ← same]
      simp
    · apply (IsBreak.line absent).tokens_append_of_clear code
      apply clear_dash code dash
  | block absent =>
    apply (IsBreak.block absent).tokens_append_of_clear code
    intro a _ b hb
    obtain rfl : '/' = b := by simpa using hb
    rw [code]
    simp [Region.Parts]
  | lineFeed =>
    apply IsBreak.lineFeed.tokens_append_of_clear code
    apply clear_of_resumes
    simp [Resumes]

/-! ### Strings -/

/-- A text may stand in a string when it holds no quote and no comment begins in it. -/
structure InString (s : Text) : Prop where
  noQuote : '"' ∉ s
  noLineComment : ¬['-', '-'] <:+: s
  noBlockComment : ¬['/', '*'] <:+: s

theorem InString.of_cons {c : Char} (h : InString (c :: s)) :
  InString s
  := by
  have part : s <:+: c :: s := (List.suffix_cons c s).isInfix
  exact ⟨fun mem => h.noQuote (List.mem_cons_of_mem c mem),
    fun line => h.noLineComment (line.trans part), fun block => h.noBlockComment (block.trans part)⟩

/-- The first character of what stands in a string is kept. -/
theorem InString.joins {c : Char} (h : InString (c :: s)) (hc : ¬isSeparator c) (v : Text) :
  ∀ d ∈ (s ++ '"' :: v).head?, Joins c d
  := by
  intro d hd
  cases s with
  | nil =>
    obtain rfl : '"' = d := by simpa using hd
    simp [Joins, hc]
  | cons e s =>
    obtain rfl : e = d := by simpa using hd
    refine ⟨?_, ?_, by simp [hc]⟩
    · rintro ⟨rfl, rfl⟩
      apply h.noLineComment ⟨[], s, rfl⟩
    · rintro ⟨rfl, rfl⟩
      apply h.noBlockComment ⟨[], s, rfl⟩

/-- What is read in a string ends at the next quote, and the string is not seen. -/
theorem InString.tokenizeFrom_append (h : InString s) (g : Gap) (v : Text) :
  tokenizeFrom true [] (normalizeFrom .code g (s ++ '"' :: v)) = tokens v
  := by
  rw [tokenizeFrom_normalizeFrom, ← tokenizeFrom_normalizeFrom true .code .closed]
  induction s with
  | nil =>
    rw [List.nil_append, normalizeFrom_of_joins (by decide) (by simp [Joins, isSeparator])]
    apply tokenizeFrom_normalizeFrom
  | cons c s ih =>
    have rest := ih h.of_cons
    by_cases separator : isSeparator c
    · rw [List.cons_append, normalizeFrom_of_isSeparator separator, tokenizeFrom_normalizeFrom,
        ← tokenizeFrom_normalizeFrom true .code .closed, rest]
    · have quote : c ≠ '"' := by
        rintro rfl
        apply h.noQuote List.mem_cons_self
      rw [List.cons_append, normalizeFrom_of_joins separator (h.joins separator v)]
      apply (tokenizeFrom_quoted quote [] _).trans rest

/-- Behind code outside of a string, a string is not seen. -/
theorem InString.tokens_append (h : InString s) (code : Region.code.after u = .code)
    (outside : endsQuoted u = false) (v : Text) :
  tokens (u ++ ['"'] ++ s ++ ['"'] ++ v) = tokens u ++ tokens v
  := by
  obtain ⟨g, -, -, reads⟩ := exists_normalizeFrom_append .code .start u (by simp)
  have whole : normalize (u ++ '"' :: (s ++ '"' :: v)) =
      normalize u ++ (g.space ++ '"' :: normalizeFrom .code .closed (s ++ '"' :: v)) := by
    rw [Vhdl.normalize, reads _ (clear_of_resumes (by simp [Resumes])), code,
      normalizeFrom_of_joins (by decide) (by simp [Joins, isSeparator])]
    rfl
  simp only [List.append_assoc, List.cons_append, List.nil_append]
  rw [endsQuoted] at outside
  rw [tokens, whole, tokenize_append_gap (by decide) (by simp [Ends]), outside]
  apply congrArg (tokens u ++ ·) (h.tokenizeFrom_append .closed v)

/-! ### What is hidden -/

/-- Whatever is written behind code, the check of a bench does not tell one break from another, be
it in or outside of a string, nor one string from another. -/
theorem missing_hidden (e : Entity) (u v : Text) (code : Region.code.after u = .code) :
  (∀ x y, IsBreak x → IsBreak y → missing e (u ++ x ++ v) = missing e (u ++ y ++ v)) ∧
    (endsQuoted u = false → ∀ s s', InString s → InString s' →
      missing e (u ++ ['"'] ++ s ++ ['"'] ++ v) = missing e (u ++ ['"'] ++ s' ++ ['"'] ++ v))
  := by
  constructor
  · intro x y hx hy
    rw [missing, missing, hx.tokens_append code, hy.tokens_append code]
  · intro outside s s' hs hs'
    rw [missing, missing, hs.tokens_append code outside, hs'.tokens_append code outside]

/-- Source that connects one port of the shifter and ends with a dash. -/
def halfMapped : Text := "u1 : shifter port map (d => a -"

/-- A port that is connected in a comment, or in a string, is missing as if nothing stood there,
also where a dash joins the comment. -/
theorem missing_hidden_shifter :
  Region.code.after halfMapped = .code ∧ endsQuoted halfMapped = false ∧
    missing shifter (halfMapped ++ "-- q => b\n" ++ ");") =
      missing shifter (halfMapped ++ ['\n'] ++ ");") ∧
    missing shifter (halfMapped ++ "/*q => b*/" ++ ");") =
      missing shifter (halfMapped ++ ['\n'] ++ ");") ∧
    missing shifter (halfMapped ++ ['"'] ++ ("q => b" : Text) ++ ['"'] ++ (");" : Text)) =
      missing shifter (halfMapped ++ ['"'] ++ [] ++ ['"'] ++ (");" : Text)) ∧
    missing shifter (halfMapped ++ ['\n'] ++ ");") = [.component, .port "q"]
  := by
  have code : Region.code.after halfMapped = .code := by decide +kernel
  have outside : endsQuoted halfMapped = false := by decide +kernel
  obtain ⟨breaks, strings⟩ := missing_hidden shifter halfMapped ");" code
  refine ⟨code, outside, ?_, ?_, ?_, by decide +kernel⟩
  · apply breaks _ _ (.line (s := " q => b".toList) (by decide)) .lineFeed
  · apply breaks _ _ (.block (s := "q => b".toList) (by decide +kernel)) .lineFeed
  · apply strings outside _ _ ⟨by decide, by decide +kernel, by decide +kernel⟩
    exact ⟨by decide, by decide, by decide⟩

end Testbench.Check
