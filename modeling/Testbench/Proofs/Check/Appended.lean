import Testbench.Check.Missing
import Testbench.Proofs.Check.Interchange
import Testbench.Proofs.Check.Silent

/-!
# What is appended to a bench

Behind a gap the tokens of the source that follows are those that are read in the region and in or
outside of the string that are open there, so the tokens before the gap stay.  A line feed makes a
gap wherever it stands, and tokens that go on lack no more than they did before: what is found in a
bench is found when lines are appended to it.
-/

namespace Testbench.Check

open Vhdl

variable {s t r name : Text} {a b : List Token} {prev : Option Token} {i : Instance}
  {region : Region} {g : Gap}

/-! ### Tokens behind a gap -/

/-- A text that goes on no word and no mark is scanned by itself behind another one. -/
theorem tokenize_append (hr : ∀ c ∈ r.head?, ¬isWordChar c ∧ ¬Ends c) :
  tokenize (s ++ r) = tokenize s ++ tokenizeFrom (quotedAfter false s) [] r
  := by
  obtain ⟨found, word, inside, scans⟩ := exists_tokenizeFrom_append false [] s
  have alone := scans [] (by simp)
  rw [List.append_nil] at alone
  rw [tokenize, tokenize, scans r fun c hc => (hr c hc).2, alone, List.append_assoc]
  congr 1
  cases quoted : quotedAfter false s with
  | true =>
    obtain rfl := inside (by simp) quoted
    rfl
  | false =>
    cases r with
    | nil => simp [tokenizeFrom, wordToken]
    | cons c r =>
      rw [tokenizeFrom_of_not_isWordChar (hr c rfl).1]
      simp [tokenizeFrom]

/-- A space goes on no word and no mark. -/
theorem space_parts :
  ¬isWordChar ' ' ∧ ¬Ends ' '
  := by simp [isWordChar, isLetter, isDigit, Ends]

/-- A character that goes on no word and no mark is scanned by itself behind a gap. -/
theorem tokenize_append_gap {c : Char} (word : ¬isWordChar c) (ends : ¬Ends c) :
  tokenize (s ++ (g.space ++ c :: r)) =
    tokenize s ++ tokenizeFrom (quotedAfter false s) [] (c :: r)
  := by
  rw [tokenize_append, tokenizeFrom_gap]
  intro d hd
  cases g with
  | opened =>
    obtain rfl : ' ' = d := by simpa [Gap.space] using hd
    apply space_parts
  | _ =>
    obtain rfl : c = d := by simpa [Gap.space] using hd
    use word, ends

/-- Whether a string is open behind the source of a bench. -/
def endsQuoted (bench : Text) : Bool := quotedAfter false (normalize bench)

/-- The tokens of a bench stay when source follows them behind a gap. -/
theorem tokens_append (clear : Region.code.Clear s r)
    (gap : ∀ g : Gap, (Region.code.after s ≠ .code → g.widen = g) →
      normalizeFrom (Region.code.after s) g r = normalizeFrom region g.widen t) :
  tokens (s ++ r) = tokens s ++ tokenizeFrom (endsQuoted s) [] (normalizeFrom region .start t)
  := by
  obtain ⟨g, wide, start, reads⟩ := exists_normalizeFrom_append .code .start s (by simp)
  have whole : normalize (s ++ r) = normalize s ++ normalizeFrom region g.widen t := by
    rw [Vhdl.normalize, reads r clear, gap g wide]
    rfl
  rw [tokens, whole, tokens, endsQuoted]
  by_cases opened : g = .start
  · -- nothing stands before the gap
    have nothing : normalize s = [] := (start opened).2
    rw [nothing, opened]
    rfl
  · have opened : g.widen = .opened := by
      cases g <;> simp_all [Gap.widen]
    rw [opened, tokenize_append, tokenizeFrom_normalizeFrom]
    intro c hc
    obtain rfl := (tidy_normalizeFrom region .opened t).2 c hc
    apply space_parts

/-- A line feed makes a gap in every region, and a comment in delimiters goes on behind it. -/
theorem exists_normalizeFrom_lineFeed (region : Region) (t : Text) :
  ∃ region' : Region, ∀ g : Gap, (region ≠ .code → g.widen = g) →
    normalizeFrom region g ('\n' :: t) = normalizeFrom region' g.widen t
  := by
  cases region with
  | code =>
    use .code
    intro g _
    apply normalizeFrom_of_isSeparator rfl
  | lineComment =>
    use .code
    intro g wide
    rw [normalizeFrom_lineEnd, wide (by simp)]
  | blockComment =>
    use .blockComment
    intro g wide
    rw [normalizeFrom_blockComment (by simp), wide (by simp)]

/-- The tokens of a bench are the first ones of the bench with further lines. -/
theorem isPrefix_tokens_append (s t : Text) :
  tokens s <+: tokens (s ++ '\n' :: t)
  := by
  obtain ⟨region, gap⟩ := exists_normalizeFrom_lineFeed (Region.code.after s) t
  rw [tokens_append (clear_of_resumes (by simp [Resumes])) gap]
  apply List.prefix_append

/-! ### Further tokens -/

/-- A component that is declared among tokens is declared among more of them. -/
theorem declares_append_left (h : declares name prev a) (b : List Token) :
  declares name prev (a ++ b)
  := by
  induction a generalizing prev with
  | nil => simp [declares] at h
  | cons t a ih =>
    rw [declares, Bool.or_eq_true] at h
    rw [List.cons_append, declares, Bool.or_eq_true]
    rcases h with here | there
    · left
      cases a with
      | nil => simp at here
      | cons t' a => exact here
    · right
      apply ih there

/-- An instance that tokens begin is begun by more of them, and it is of the same kind: the first
token alone decides between the kinds. -/
theorem instance?_append_left (h : instance? name a = some i) (b : List Token) :
  instance? name (a ++ b) = some i
  := by
  have keeps : ∀ {k : Nat} {t : Token}, a[k]? = some t → (a ++ b)[k]? = some t := by
    intro k t h
    rw [List.getElem?_append_left (List.getElem?_eq_some_iff.1 h).1, h]
  rw [instance?] at h
  split_ifs at h with component own direct
  · rw [instance?, if_pos ⟨keeps component.1, keeps component.2⟩, h]
  · -- the further tokens may make it the word for components, and it is one all the same
    rw [instance?, if_pos (keeps own), ite_self, h]
  · have first := keeps direct.1
    rw [instance?, if_neg, if_neg, if_pos ⟨first, keeps direct.2.1, keeps direct.2.2⟩, h]
    · rwa [first, ← direct.1]
    · rw [first]
      simp

theorem mem_instances_append_left (h : i ∈ instances name a) (b : List Token) :
  i ∈ instances name (a ++ b)
  := by
  induction a with
  | nil => simp [instances] at h
  | cons t a ih =>
    rw [instances, List.mem_append] at h
    rw [List.cons_append, instances, List.mem_append]
    rcases h with here | there
    · left
      split at here
      · next colon =>
        rw [if_pos colon, Option.mem_toList]
        rw [Option.mem_toList] at here
        apply instance?_append_left here
      · simp at here
    · right
      apply ih there

/-- What is listed under a condition is left out when the condition fails. -/
theorem sublist_ite_of_imp {p q : Prop} [Decidable p] [Decidable q] (h : p → q)
    (ms : List Missing) :
  (if q then [] else ms).Sublist (if p then [] else ms)
  := by
  split_ifs with hq hp hp
  · apply List.Sublist.refl
  · apply List.nil_sublist
  · exact absurd (h hp) hq
  · apply List.Sublist.refl

/-- More tokens lack no more, and what they lack they lack in the same order. -/
theorem missingFrom_append (e : Entity) (a b : List Token) :
  (missingFrom e (a ++ b)).Sublist (missingFrom e a)
  := by
  have found : ∀ i ∈ instances e.name.key a, i ∈ instances e.name.key (a ++ b) :=
    fun i hi => mem_instances_append_left hi b
  apply List.Sublist.append
  · apply List.Sublist.append
    · apply sublist_ite_of_imp
      rw [Bool.or_eq_true, Bool.or_eq_true, List.contains_iff_mem, List.contains_iff_mem]
      rintro (declared | direct)
      · left
        apply declares_append_left declared
      · right
        apply found _ direct
    · rw [← ite_not, ← ite_not (p := instances _ a = [])]
      apply sublist_ite_of_imp
      intro some
      obtain ⟨i, hi⟩ := List.exists_mem_of_ne_nil _ some
      apply List.ne_nil_of_mem (found i hi)
  · apply List.Sublist.map
    apply List.monotone_filter_right
    intro p absent
    rw [associates_append, Bool.not_eq_true', Bool.or_eq_false_iff, Bool.or_eq_false_iff] at absent
    rw [absent.1.1]
    rfl

/-- Lines that are appended to a bench lose nothing that is found in it, whatever comment or string
the bench ends in.  The tokens of the bench are the first ones of the longer bench, and what this
lacks of an entity is some of what the bench lacks, in the same order. -/
theorem missing_append_lines (bench lines : Text) :
  tokens bench <+: tokens (bench ++ ['\n'] ++ lines) ∧
    ∀ e : Entity, (missing e (bench ++ ['\n'] ++ lines)).Sublist (missing e bench)
  := by
  rw [List.append_assoc, List.singleton_append]
  have first := isPrefix_tokens_append bench lines
  use first
  intro e
  obtain ⟨further, eq⟩ := first
  rw [missing, missing, ← eq]
  apply missingFrom_append

end Testbench.Check
