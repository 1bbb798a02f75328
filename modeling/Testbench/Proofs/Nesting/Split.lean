import Testbench.Proofs.Nesting.Balanced

/-!
# Splitting at separators

The pieces of a text are what stands between the separators at the outer level: with the
separator between them they are the text again, and exactly the separators at the outer level
stand between two of them.  `split` of a piece, a separator and a further text is the trimmed
piece and the split of the further text, and every part of a balanced text is balanced and
holds no separator at the outer level.
-/

namespace Testbench.Vhdl

open Nesting

variable {sep : Char} {n : Nesting} {a b q r t : Text} {ps : List Text}

theorem pieces_ne_nil :
  pieces sep n t ≠ []
  := by
  induction t generalizing n with
  | nil => simp [pieces]
  | cons c t ih =>
    rw [pieces]
    split
    · simp
    · split <;> simp

/-- A character in front of a text stands in front of its first piece, unless it is a
separator at the outer level. -/
theorem pieces_cons {c : Char} (h : ¬(n.isOuter ∧ c = sep))
    (ht : pieces sep (n.next c) t = q :: ps) :
  pieces sep n (c :: t) = (c :: q) :: ps
  := by
  rw [pieces, if_neg (by simpa using h), ht]

/-- A text without a separator at the outer level is its only piece. -/
theorem pieces_of_lacks (h : n.Lacks sep t) :
  pieces sep n t = [t]
  := by
  induction t generalizing n with
  | nil => rfl
  | cons c t ih => apply pieces_cons h.1 (ih h.2)

/-- A text up to its first separator at the outer level is its first piece. -/
theorem pieces_append (hq : n.Lacks sep q) (ends : n.after q = outer) :
  pieces sep n (q ++ sep :: r) = q :: pieces sep outer r
  := by
  induction q generalizing n with
  | nil =>
    obtain rfl : n = outer := ends
    simp [pieces]
  | cons c q ih => apply pieces_cons hq.1 (ih hq.2 ends)

/-- Either a text is its only piece, or its first piece ends at its first separator at the
outer level and the other pieces are those of the rest. -/
theorem eq_of_pieces_eq (h : pieces sep n t = q :: ps) :
  n.Lacks sep q ∧ ((t = q ∧ ps = []) ∨
    ∃ r, t = q ++ sep :: r ∧ n.after q = outer ∧ ps = pieces sep outer r)
  := by
  induction t generalizing n q ps with
  | nil =>
    obtain ⟨rfl, rfl⟩ : [] = q ∧ [] = ps := by simpa [pieces] using h
    simp
  | cons c t ih =>
    by_cases here : n.isOuter ∧ c = sep
    · obtain ⟨isOuter, rfl⟩ := here
      rw [pieces, if_pos (by simpa using isOuter)] at h
      obtain ⟨rfl, rfl⟩ := List.cons.inj h
      rw [isOuter_iff] at isOuter
      use trivial
      right
      use t, rfl, isOuter
      rw [isOuter]
    · obtain ⟨q', ps', h'⟩ : ∃ q' ps', pieces sep (n.next c) t = q' :: ps' :=
        List.exists_cons_of_ne_nil pieces_ne_nil
      rw [pieces_cons here h'] at h
      obtain ⟨rfl, rfl⟩ := List.cons.inj h
      obtain ⟨lacks, ⟨rfl, rfl⟩ | ⟨r, rfl, ends, rfl⟩⟩ := ih h'
      · use ⟨here, lacks⟩
        left
        use rfl
      · use ⟨here, lacks⟩
        right
        use r, rfl, ends

/-! ### Pieces with the separator between them -/

theorem join_cons (hps : ps ≠ []) (sep q : Text) :
  Text.join sep (q :: ps) = q ++ sep ++ Text.join sep ps
  := by
  obtain ⟨p, ps, rfl⟩ := List.exists_cons_of_ne_nil hps
  rw [Text.join, List.intercalate_cons_cons]
  rfl

/-- The pieces of a text with the separator between them are the text. -/
theorem join_pieces (sep : Char) (n : Nesting) (t : Text) :
  Text.join [sep] (pieces sep n t) = t
  := by
  generalize h : pieces sep n t = ps
  induction ps generalizing n t with
  | nil => exact absurd h pieces_ne_nil
  | cons q ps ih =>
    obtain ⟨-, ⟨rfl, rfl⟩ | ⟨r, rfl, -, rfl⟩⟩ := eq_of_pieces_eq h
    · rw [Text.join, List.intercalate_singleton]
    · rw [join_cons pieces_ne_nil, ih outer r rfl, List.append_assoc, List.singleton_append]

/-- A separator is removed from a text when it stands between two of its pieces. -/
def Removed (sep : Char) (ps : List Text) (a b : Text) : Prop :=
  ∃ i, i + 1 < ps.length ∧ a = Text.join [sep] (ps.take (i + 1)) ∧
    b = Text.join [sep] (ps.drop (i + 1))

/-- Between the first piece and the others the first separator is removed, and then those between
the others. -/
theorem removed_cons (hps : ps ≠ []) :
  Removed sep (q :: ps) a b ↔
    (a = q ∧ b = Text.join [sep] ps) ∨ ∃ a', a = q ++ sep :: a' ∧ Removed sep ps a' b
  := by
  constructor
  · rintro ⟨i, lt, rfl, rfl⟩
    cases i with
    | zero =>
      left
      simp [Text.join]
    | succ i =>
      right
      have first : ps.take (i + 1) ≠ [] := by simpa using hps
      use Text.join [sep] (ps.take (i + 1))
      constructor
      · rw [List.take_succ_cons, join_cons first, List.append_assoc, List.singleton_append]
      · use i, by simpa using lt, rfl
        rw [List.drop_succ_cons]
  · rintro (⟨rfl, rfl⟩ | ⟨a', rfl, i, lt, rfl, rfl⟩)
    · use 0, by simpa [List.length_pos_iff] using hps
      simp [Text.join]
    · have first : ps.take (i + 1) ≠ [] := by simpa using hps
      use i + 1, by simpa using lt
      rw [List.take_succ_cons, join_cons first, List.drop_succ_cons, List.append_assoc,
        List.singleton_append]
      exact ⟨rfl, rfl⟩

/-- Two places of a character in a text are the same, or one of them is behind the other. -/
theorem append_cons_cases {x : Char} (h : q ++ x :: r = a ++ x :: b) :
  (a = q ∧ b = r) ∨ (∃ a', a = q ++ x :: a' ∧ r = a' ++ x :: b) ∨ ∃ b', q = a ++ x :: b'
  := by
  rcases List.append_eq_append_iff.1 h with ⟨m, rfl, eq⟩ | ⟨m, rfl, eq⟩
  · cases m with
    | nil =>
      left
      use List.append_nil q, (List.cons.inj eq).2.symm
    | cons c m =>
      obtain ⟨rfl, rfl⟩ := List.cons.inj eq
      right
      left
      exact ⟨m, rfl, rfl⟩
  · cases m with
    | nil =>
      left
      use (List.append_nil a).symm, (List.cons.inj eq).2
    | cons c m =>
      obtain ⟨rfl, -⟩ := List.cons.inj eq
      right
      right
      use m

/-- Exactly the separators at the outer level are removed. -/
theorem removed_pieces_iff (hsep : IsPlain sep) (h : t = a ++ sep :: b) :
  Removed sep (pieces sep outer t) a b ↔ outer.after a = outer
  := by
  generalize hps : pieces sep outer t = ps
  induction ps generalizing t a with
  | nil => exact absurd hps pieces_ne_nil
  | cons q ps ih =>
    obtain ⟨lacks, ⟨rfl, rfl⟩ | ⟨r, rfl, ends, rfl⟩⟩ := eq_of_pieces_eq hps
    · -- the only piece holds no separator at the outer level, and none is removed
      rw [h, lacks_append] at lacks
      apply iff_of_false
      · rintro ⟨i, lt, -⟩
        simp at lt
      · intro outer
        apply lacks.2.1 ⟨isOuter_iff.2 outer, rfl⟩
    · rw [removed_cons pieces_ne_nil, join_pieces]
      rcases append_cons_cases h with ⟨rfl, rfl⟩ | ⟨a', rfl, rfl⟩ | ⟨b', rfl⟩
      · simp [ends]
      · have inner := ih (a := a') rfl rfl
        rw [after_append, ends, after_cons, next_of_isPlain hsep, ← inner]
        simp
      · -- a separator in the first piece stands deeper, and what is removed stands behind it
        rw [lacks_append] at lacks
        apply iff_of_false
        · rintro (⟨eq, -⟩ | ⟨a', eq, -⟩)
          · simpa using congrArg List.length eq
          · have := congrArg List.length eq
            simp only [List.length_append, List.length_cons] at this
            omega
        · intro outer
          apply lacks.2.1 ⟨isOuter_iff.2 outer, rfl⟩

/-- The pieces of a balanced text are balanced parts of it without a separator at the
outer level. -/
theorem Balanced.of_mem_pieces (hsep : IsPlain sep) (ht : Balanced t)
    (hq : q ∈ pieces sep outer t) :
  Balanced q ∧ outer.Lacks sep q ∧ q <:+: t
  := by
  generalize h : pieces sep outer t = ps at hq
  induction ps generalizing t with
  | nil => simp at hq
  | cons first ps ih =>
    obtain ⟨lacks, ⟨rfl, rfl⟩ | ⟨r, rfl, ends, rfl⟩⟩ := eq_of_pieces_eq h
    · obtain rfl : q = t := by simpa using hq
      refine ⟨ht, lacks, List.infix_rfl⟩
    · obtain ⟨before, rest⟩ := ht.of_append ends
      rcases List.mem_cons.1 hq with rfl | hq
      · use before, lacks
        apply (List.prefix_append _ _).isInfix
      · have further : Balanced r := rest.of_isPlain_append (s := [sep]) (by simpa using hsep)
        obtain ⟨balanced, lacks, part⟩ := ih further rfl hq
        use balanced, lacks
        apply part.trans
        apply List.IsSuffix.isInfix
        apply (List.suffix_cons sep r).trans (List.suffix_append first _)

/-! ### Trimmed pieces -/

/-- A text without a separator at the outer level is split into its trim alone. -/
theorem split_of_lacks (h : outer.Lacks sep t) :
  split sep t = [t.trim]
  := by
  rw [split, pieces_of_lacks h]
  rfl

/-- A text is split at its first separator at the outer level. -/
theorem split_append (hq : outer.Lacks sep q) (ends : outer.after q = outer) :
  split sep (q ++ sep :: r) = q.trim :: split sep r
  := by
  rw [split, pieces_append hq ends]
  rfl

/-- A text lacks a character exactly if it does not stand at the outer level anywhere in it. -/
theorem lacks_iff {x : Char} :
  n.Lacks x t ↔ ∀ a b, t = a ++ x :: b → n.after a ≠ outer
  := by
  induction t generalizing n with
  | nil => simp
  | cons c t ih =>
    rw [lacks_cons, ih, isOuter_iff]
    constructor
    · rintro ⟨here, there⟩ a b eq
      cases a with
      | nil =>
        intro ends
        apply here ⟨ends, (List.cons.inj eq).1⟩
      | cons d a =>
        obtain ⟨rfl, rfl⟩ := List.cons.inj eq
        apply there a b rfl
    · intro h
      constructor
      · rintro ⟨ends, rfl⟩
        apply h [] t rfl ends
      · rintro a b rfl
        apply h (c :: a) b rfl

/-- A text is split into the trims of its pieces.  With the separator between them they are the
text, and the separators removed are exactly those outside of strings and parentheses; so a text is
split at its first separator of this kind into the trim of what stands before it and the parts of
what follows. -/
theorem split_at_outer_level (hsep : IsPlain sep) (t : Text) :
  (∃ qs, qs ≠ [] ∧ split sep t = qs.map Text.trim ∧ Text.join [sep] qs = t ∧
    ∀ a b, t = a ++ sep :: b →
      (Removed sep qs a b ↔ Even (a.count '"') ∧ (outer.after a).depth = 0)) ∧
  ∀ q r, Even (q.count '"') ∧ (outer.after q).depth = 0 →
    (∀ a b, q = a ++ sep :: b → ¬(Even (a.count '"') ∧ (outer.after a).depth = 0)) →
    split sep (q ++ sep :: r) = q.trim :: split sep r
  := by
  simp only [← after_eq_outer_iff]
  constructor
  · use pieces sep outer t, pieces_ne_nil, rfl, join_pieces sep outer t
    intro a b h
    apply removed_pieces_iff hsep h
  · intro q r ends none
    apply split_append (lacks_iff.2 none) ends

/-- Semicolons in strings and in parentheses are kept, and so is a closing parenthesis that closes
nothing. -/
theorem split_at_outer_level_semicolon :
  IsPlain ';' ∧
    split ';' (" é) f(a; g(\")\";b)) " ++ ';' :: " \";\"") = ["é) f(a; g(\")\";b))", "\";\""]
  := by
  have plain : IsPlain ';' := by decide
  have kept : ∀ a b, (" é) f(a; g(\")\";b)) " : Text) = a ++ ';' :: b →
      ¬(Even (a.count '"') ∧ (outer.after a).depth = 0) := by
    simp only [← after_eq_outer_iff]
    apply lacks_iff.1
    decide
  use plain
  rw [(split_at_outer_level plain []).2 _ _ (by decide) kept]
  decide

/-- A blank before a text does not change its parts. -/
theorem split_cons_of_isBlank {c : Char} (hc : isBlank c) (hsep : ¬isBlank sep) :
  split sep (c :: t) = split sep t
  := by
  obtain ⟨q, ps, h⟩ : ∃ q ps, pieces sep outer t = q :: ps :=
    List.exists_cons_of_ne_nil pieces_ne_nil
  have other : ¬(outer.isOuter ∧ c = sep) := by
    rintro ⟨-, rfl⟩
    apply hsep hc
  have same : pieces sep (outer.next c) t = q :: ps := by
    rw [next_of_isPlain (isPlain_of_isBlank hc), h]
  rw [split, split, h, pieces_cons other same, List.map_cons, List.map_cons]
  rw [← Text.trim_append_left (a := [c]) (t := q) (by simpa using hc)]
  rfl

section

variable {a : Text} (ha : ∀ c ∈ a, isBlank c) (hsep : ¬isBlank sep)
include ha hsep

/-- Blanks before a text do not change its parts. -/
theorem split_append_left (t : Text) :
  split sep (a ++ t) = split sep t
  := by
  induction a with
  | nil => rfl
  | cons c a ih =>
    rw [List.cons_append, split_cons_of_isBlank (ha c List.mem_cons_self) hsep]
    apply ih fun d hd => ha d (List.mem_cons_of_mem c hd)

/-- Blanks behind a text do not change its parts. -/
theorem split_append_right (t : Text) :
  split sep (t ++ a) = split sep t
  := by
  generalize h : pieces sep outer t = ps
  induction ps generalizing t with
  | nil => exact absurd h pieces_ne_nil
  | cons q ps ih =>
    obtain ⟨lacks, ⟨rfl, rfl⟩ | ⟨r, rfl, ends, rfl⟩⟩ := eq_of_pieces_eq h
    · have absent : sep ∉ a := fun mem => hsep (ha sep mem)
      have whole : outer.Lacks sep (t ++ a) := lacks_append.2 ⟨lacks, lacks_of_not_mem absent⟩
      rw [split_of_lacks whole, split_of_lacks lacks, Text.trim_append_right ha]
    · rw [List.append_assoc, List.cons_append, split_append lacks ends, split_append lacks ends,
        ih r rfl]

end

/-- Texts between separators are split into their trims if they end at the outer level and hold no
separator there. -/
theorem split_join {gap : Text} {ts : List Text} (hgap : ∀ c ∈ gap, isBlank c)
    (hsep : ¬isBlank sep) (h : ∀ t ∈ ts, outer.after t = outer ∧ outer.Lacks sep t)
    (ne : ts ≠ []) :
  split sep (Text.join (sep :: gap) ts) = ts.map Text.trim
  := by
  induction ts with
  | nil => contradiction
  | cons t ts ih =>
    obtain ⟨ends, lacks⟩ := h t List.mem_cons_self
    cases ts with
    | nil => rw [Text.join, List.intercalate_singleton, split_of_lacks lacks, List.map_singleton]
    | cons t' ts =>
      have further := ih (fun t ht => h t (List.mem_cons_of_mem _ ht)) (by simp)
      rw [Text.join, List.intercalate_cons_cons, List.append_assoc, List.cons_append,
        split_append lacks ends, List.map_cons, split_append_left hgap hsep]
      rw [← further]
      rfl

/-- Without the blanks at its start a text has the parts of the text. -/
theorem split_trimStart (hsep : ¬isBlank sep) (t : Text) :
  split sep t.trimStart = split sep t
  := by
  conv_rhs => rw [← t.takeWhile_append_trimStart]
  rw [split_append_left (fun c hc => List.mem_takeWhile_imp hc) hsep]

/-- The trim of a text has the parts of the text. -/
theorem split_trim (hsep : ¬isBlank sep) (t : Text) :
  split sep t.trim = split sep t
  := by
  obtain ⟨a, b, ha, hb, eq⟩ := t.exists_blanks_trim
  conv_rhs => rw [← eq]
  rw [split_append_right hb hsep, split_append_left ha hsep]

/-- The parts into which a balanced text is split are trimmed and balanced parts of it
without a separator at the outer level. -/
theorem Balanced.of_mem_split (hsep : IsPlain sep) (blank : ¬isBlank sep) (ht : Balanced t)
    (hq : q ∈ split sep t) :
  q.trim = q ∧ Balanced q ∧ outer.Lacks sep q ∧ q <:+: t
  := by
  obtain ⟨piece, hpiece, rfl⟩ := List.mem_map.1 hq
  obtain ⟨balanced, lacks, part⟩ := ht.of_mem_pieces hsep hpiece
  use Text.trim_trim piece, balanced.trim, (lacks_trim blank).2 lacks
  apply (Text.isInfix_trim piece).trans part

end Testbench.Vhdl
