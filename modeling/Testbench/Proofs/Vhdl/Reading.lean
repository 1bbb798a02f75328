import Testbench.Proofs.Vhdl.Normal

/-!
# Reading on

Behind a part of the source a reader is in code or in a comment, `Region.after`.  What is then
written for the rest depends on the part by this region and by the gap behind the part only, as
long as the two are `Clear` of each other: no mark of two characters with which a comment begins or
ends runs from the part into the rest.
-/

namespace Testbench.Vhdl

variable {s t r mark : Text} {a b c : Char} {region : Region} {g : Gap}

theorem widen_widen (g : Gap) :
  g.widen.widen = g.widen
  := by
  cases g <;> rfl

theorem eq_start_of_widen (h : g.widen = .start) :
  g = .start
  := by
  cases g <;> simp_all [Gap.widen]

namespace Region

/-- The region that a reader is in behind a text. -/
def after : Region → Text → Region
  | region, [] => region
  | .code, '-' :: '-' :: r => after .lineComment r
  | .code, '/' :: '*' :: r => after .blockComment r
  | .code, _ :: r => after .code r
  | .lineComment, '\n' :: r => after .code r
  | .lineComment, _ :: r => after .lineComment r
  | .blockComment, '*' :: '/' :: r => after .code r
  | .blockComment, _ :: r => after .blockComment r

/-- Two characters are no mark with which a comment begins in code, or with which one in delimiters
ends. -/
def Parts : Region → Char → Char → Prop
  | .code, a, b => ¬(a = '-' ∧ b = '-') ∧ ¬(a = '/' ∧ b = '*')
  | .lineComment, _, _ => True
  | .blockComment, a, b => ¬(a = '*' ∧ b = '/')

/-- The characters where two texts meet are no mark in the region between them. -/
def Clear (region : Region) (s r : Text) : Prop :=
  ∀ a ∈ s.getLast?, ∀ b ∈ r.head?, (region.after s).Parts a b

theorem parts_code (noLine : ∀ r, c = '-' → s = '-' :: r → False)
    (noBlock : ∀ r, c = '/' → s = '*' :: r → False) :
  ∀ d ∈ s.head?, Parts .code c d
  := by
  intro d hd
  obtain ⟨r, rfl⟩ := List.head?_eq_some_iff.1 hd
  constructor
  · rintro ⟨rfl, rfl⟩
    apply noLine r rfl rfl
  · rintro ⟨rfl, rfl⟩
    apply noBlock r rfl rfl

theorem parts_blockComment (other : ∀ r, c = '*' → s = '/' :: r → False) :
  ∀ d ∈ s.head?, Parts .blockComment c d
  := by
  intro d hd
  obtain ⟨r, rfl⟩ := List.head?_eq_some_iff.1 hd
  rintro ⟨rfl, rfl⟩
  apply other r rfl rfl

theorem after_code (h : ∀ d ∈ s.head?, Parts .code c d) :
  after .code (c :: s) = after .code s
  := by
  rw [after]
  · rintro s rfl rfl
    apply (h '-' rfl).1 ⟨rfl, rfl⟩
  · rintro s rfl rfl
    apply (h '*' rfl).2 ⟨rfl, rfl⟩

theorem after_lineComment (hc : c ≠ '\n') :
  after .lineComment (c :: s) = after .lineComment s
  := by
  rw [after]
  apply hc

theorem after_blockComment (h : ∀ d ∈ s.head?, Parts .blockComment c d) :
  after .blockComment (c :: s) = after .blockComment s
  := by
  rw [after]
  rintro s rfl rfl
  apply h '/' rfl ⟨rfl, rfl⟩

theorem parts_of_isSeparator (hc : isSeparator c) (s : Text) :
  ∀ d ∈ s.head?, Parts .code c d
  := by
  intro d _
  constructor <;>
    · rintro ⟨rfl, -⟩
      contradiction

theorem after_of_opens (h : Opens mark region) (s : Text) :
  after .code (mark ++ s) = region.after s
  := by
  cases h <;> rfl

theorem after_of_closes (h : Closes region mark) (s : Text) :
  region.after (mark ++ s) = after .code s
  := by
  cases h <;> rfl

theorem after_of_comment (comment : region ≠ .code)
    (inside : ∀ mark, Closes region mark → ¬mark <+: c :: s) :
  region.after (c :: s) = region.after s
  := by
  cases region with
  | code => contradiction
  | lineComment =>
    apply after_lineComment
    rintro rfl
    apply inside _ .line ⟨s, rfl⟩
  | blockComment =>
    apply after_blockComment
    intro d hd
    obtain ⟨s', rfl⟩ := List.head?_eq_some_iff.1 hd
    rintro ⟨rfl, rfl⟩
    apply inside _ .block ⟨s', rfl⟩

/-- Where two texts meet depends on the end of the first only. -/
theorem Clear.of_isSuffix {region' : Region} (h : region.Clear t r) (part : s <:+ t)
    (same : region.after t = region'.after s) :
  region'.Clear s r
  := by
  obtain ⟨w, rfl⟩ := part
  intro a ha b hb
  rw [← same]
  apply h a _ b hb
  rw [List.getLast?_append, Option.mem_def.1 ha]
  rfl

/-- A character is no mark with the one behind it if it is none in its own text, and none where
this text meets the next. -/
theorem Clear.parts (h : region.Clear (c :: s) r) (alone : region.after [c] = region)
    (inside : ∀ d ∈ s.head?, region.Parts c d) :
  ∀ d ∈ (s ++ r).head?, region.Parts c d
  := by
  intro d hd
  cases s with
  | nil =>
    rw [← alone]
    apply h c rfl d hd
  | cons e s => apply inside d hd

/-- No comment ends with a character of a text if none ends with it in the text itself. -/
theorem Clear.not_closes (h : region.Clear (c :: s) r)
    (inside : ∀ mark, Closes region mark → ¬mark <+: c :: s) :
  ∀ mark, Closes region mark → ¬mark <+: c :: (s ++ r)
  := by
  rintro mark ends part
  cases ends with
  | line =>
    apply inside _ .line
    simpa using part
  | block =>
    obtain ⟨rfl, slash⟩ := List.cons_prefix_cons.1 part
    have parts : ∀ d ∈ s.head?, Parts .blockComment '*' d := by
      intro d hd
      obtain ⟨s', rfl⟩ := List.head?_eq_some_iff.1 hd
      rintro ⟨-, rfl⟩
      apply inside _ .block ⟨s', rfl⟩
    obtain ⟨r', eq⟩ := slash
    apply h.parts (after_blockComment (by simp)) parts '/' _ ⟨rfl, rfl⟩
    rw [← eq]
    rfl

/-- A dash that stands in code is behind code, and behind no other dash. -/
theorem of_after_append_dash (h : region.after (s ++ ['-']) = .code) :
  region.after s = .code ∧ s.getLast? ≠ some '-'
  := by
  fun_induction after region s with
  | case1 region => cases region <;> simp_all [after]
  | case2 s ih | case3 s ih | case5 s ih | case7 s ih =>
    obtain ⟨code, last⟩ := ih h
    use code
    cases s <;> simp_all [after]
  | case4 c s noLine noBlock ih =>
    cases s with
    | nil =>
      by_cases dash : c = '-'
      · subst dash
        contradiction
      · simpa [after] using dash
    | cons d s =>
      have parts : ∀ e ∈ (d :: s ++ ['-']).head?, Parts .code c e :=
        parts_code (s := d :: s) noLine noBlock
      rw [List.cons_append, after_code parts] at h
      simpa using ih h
  | case6 c s other ih =>
    rw [List.cons_append, after_lineComment other] at h
    obtain ⟨code, last⟩ := ih h
    use code
    cases s <;> simp_all [after]
  | case8 c s other ih =>
    have parts : ∀ d ∈ (s ++ ['-']).head?, Parts .blockComment c d := by
      cases s with
      | nil => simp [Parts]
      | cons d s => apply parts_blockComment (s := d :: s) other
    rw [List.cons_append, after_blockComment parts] at h
    obtain ⟨code, last⟩ := ih h
    use code
    cases s <;> simp_all [after]

end Region

/-- Characters join as code when they are parts of no mark and not both separators. -/
theorem joins_of_parts (hc : ¬isSeparator a) (h : Region.Parts .code a b) :
  Joins a b
  := ⟨h.1, h.2, by simp [hc]⟩

theorem Joins.parts (h : Joins a b) :
  Region.Parts .code a b
  := ⟨h.1, h.2.1⟩

/-- What is written for a text behind another one is written in the region behind the first, and
behind a gap that is wide in a comment. -/
theorem exists_normalizeFrom_append (region : Region) (g : Gap) (s : Text)
    (wide : region ≠ .code → g.widen = g) :
  ∃ g', (region.after s ≠ .code → Gap.widen g' = g') ∧
    (g' = .start → g = .start ∧ normalizeFrom region g s = []) ∧
    ∀ r, region.Clear s r →
      normalizeFrom region g (s ++ r) =
        normalizeFrom region g s ++ normalizeFrom (region.after s) g' r
  := by
  induction region, g, s using normalizeFrom_induction with
  | nil region g =>
    use g, wide
    simp [Region.after, normalizeFrom]
  | opens g mark region s begins ih =>
    obtain ⟨g', wide', start, reads⟩ := ih fun _ => widen_widen g
    have same := Region.after_of_opens begins s
    rw [same, normalizeFrom_of_opens begins]
    use g', wide', fun h => ⟨eq_start_of_widen (start h).1, (start h).2⟩
    intro r hr
    rw [List.append_assoc, normalizeFrom_of_opens begins, reads r (hr.of_isSuffix ⟨mark, rfl⟩ same)]
  | separator g c s separator ih =>
    obtain ⟨g', wide', start, reads⟩ := ih (by simp)
    have same := Region.after_code (Region.parts_of_isSeparator separator s)
    rw [same, normalizeFrom_of_isSeparator separator]
    use g', wide', fun h => ⟨eq_start_of_widen (start h).1, (start h).2⟩
    intro r hr
    rw [List.cons_append, normalizeFrom_of_isSeparator separator,
      reads r (hr.of_isSuffix ⟨[c], rfl⟩ same)]
  | kept g c s letter joins ih =>
    obtain ⟨g', wide', start, reads⟩ := ih (by simp)
    have parts : ∀ d ∈ s.head?, Region.Parts .code c d := fun d hd => (joins d hd).parts
    have same := Region.after_code parts
    rw [same, normalizeFrom_of_joins letter joins]
    use g', wide', fun h => absurd (start h).1 (by simp)
    intro r hr
    rw [List.cons_append, normalizeFrom_of_joins letter, reads r (hr.of_isSuffix ⟨[c], rfl⟩ same)]
    · simp
    · intro d hd
      apply joins_of_parts letter (hr.parts (Region.after_code (by simp)) parts d hd)
  | closes region g mark s ends ih =>
    obtain ⟨g', wide', start, reads⟩ := ih (by simp)
    have same := Region.after_of_closes ends s
    rw [same, normalizeFrom_of_closes ends]
    use g', wide', start
    intro r hr
    rw [List.append_assoc, normalizeFrom_of_closes ends, reads r (hr.of_isSuffix ⟨mark, rfl⟩ same)]
  | comment region g c s comment inside ih =>
    obtain ⟨g', wide', start, reads⟩ := ih wide
    have same := Region.after_of_comment comment inside
    rw [same, normalizeFrom_of_comment comment inside]
    use g', wide', start
    intro r hr
    rw [List.cons_append, normalizeFrom_of_comment comment (hr.not_closes inside),
      reads r (hr.of_isSuffix ⟨[c], rfl⟩ same)]

end Testbench.Vhdl
