import Testbench.Proofs.Case.Text
import Testbench.Proofs.Vhdl.Normal
import Testbench.Vhdl.Nesting

/-!
# Searching in either case

Removing comments, searching at the outer level, splitting at separators and reading words
all commute with putting the source into lower case: marks have no case, and words are
compared without regard to it.
-/

namespace Testbench.Vhdl

open Text Nesting

variable {p : Option Char → Text → Bool} {n : Nesting} {prev : Option Char} {t word : Text}
  {x c : Char}

/-! ### Normal source -/

/-- Characters join in lower case exactly if they join as they are. -/
theorem joins_toLower :
  Joins c.toLower x.toLower ↔ Joins c x
  := by
  have dash : IsMark '-' := by decide
  have slash : IsMark '/' := by decide
  have star : IsMark '*' := by decide
  simp only [Joins, toLower_eq_iff dash, toLower_eq_iff slash, toLower_eq_iff star,
    isSeparator_toLower]

theorem Opens.isMark {mark : Text} {region : Region} (h : Opens mark region) :
  ∀ x ∈ mark, IsMark x
  := by
  cases h <;> decide

theorem Closes.isMark {mark : Text} {region : Region} (h : Closes region mark) :
  ∀ x ∈ mark, IsMark x
  := by
  cases h <;> decide

/-- The normal form of source in lower case is the normal form in lower case. -/
theorem normalizeFrom_lower (region : Region) (g : Gap) (t : Text) :
  normalizeFrom region g (lower t) = lower (normalizeFrom region g t)
  := by
  induction region, g, t using normalizeFrom_induction with
  | nil region g => rw [lower_nil, normalizeFrom, lower_nil]
  | opens g mark region r begins ih =>
    rw [lower_append, lower_eq_of_isMark begins.isMark, normalizeFrom_of_opens begins,
      normalizeFrom_of_opens begins, ih]
  | separator g c r separator ih =>
    rw [lower_cons, normalizeFrom_of_isSeparator (by rwa [isSeparator_toLower]),
      normalizeFrom_of_isSeparator separator, ih]
  | kept g c r letter joins ih =>
    rw [lower_cons, normalizeFrom_of_joins (by rwa [isSeparator_toLower]),
      normalizeFrom_of_joins letter joins, ih]
    · cases g <;> rfl
    · intro d hd
      obtain ⟨x, hx, rfl⟩ : ∃ x ∈ r.head?, x.toLower = d := by
        simpa [lower] using hd
      apply joins_toLower.2 (joins x hx)
  | closes region g mark r ends ih =>
    rw [lower_append, lower_eq_of_isMark ends.isMark, normalizeFrom_of_closes ends,
      normalizeFrom_of_closes ends, ih]
  | comment region g c r comment inside ih =>
    rw [lower_cons, normalizeFrom_of_comment comment, normalizeFrom_of_comment comment inside, ih]
    intro mark ends part
    apply inside mark ends
    apply (isPrefix_lower_iff (t := c :: r) ends.isMark).1 part

theorem normalize_lower (t : Text) :
  normalize (lower t) = lower (normalize t)
  := normalizeFrom_lower .code .start t

/-! ### Places at the outer level -/

@[simp]
theorem next_toLower (n : Nesting) (c : Char) :
  n.next c.toLower = n.next c
  := by
  have quote : IsMark '"' := by decide
  have opening : IsMark '(' := by decide
  have closing : IsMark ')' := by decide
  simp only [next, toLower_eq_iff quote, toLower_eq_iff opening, toLower_eq_iff closing]

/-- A search for places whose property does not depend on case commutes with lower case. -/
theorem splitWhere_lower (hp : ∀ prev t, p (prev.map Char.toLower) (lower t) = p prev t) :
  splitWhere p n (prev.map Char.toLower) (lower t) =
    (splitWhere p n prev t).map (Prod.map lower lower)
  := by
  induction t generalizing n prev with
  | nil => rfl
  | cons c t ih =>
    have here := hp prev (c :: t)
    rw [lower_cons] at here
    rw [lower_cons, splitWhere, splitWhere, here, next_toLower]
    split
    · rfl
    · have further := @ih (n.next c) (some c)
      rw [Option.map_some] at further
      rw [further, Option.map_map, Option.map_map]
      rfl

/-- What stands behind the place of a split commutes with lower case. -/
theorem map_drop_lower (k : Nat) (parts : Option (Text × Text)) :
  ((parts.map (Prod.map lower lower)).map fun (before, rest) => (before, rest.drop k)) =
    (parts.map fun (before, rest) => (before, rest.drop k)).map (Prod.map lower lower)
  := by
  cases parts with
  | none => rfl
  | some parts => simp [lower_drop]

theorem splitColon?_lower (t : Text) :
  splitColon? (lower t) = (splitColon? t).map (Prod.map lower lower)
  := by
  have colon : IsMark ':' := by decide
  have equals : IsMark '=' := by decide
  rw [splitColon?, splitColon?, ← map_drop_lower, ← splitWhere_lower]
  · rfl
  · intro prev t
    cases t with
    | nil => rfl
    | cons c t =>
      simp only [lower_cons, List.head?_cons, List.tail_cons, head?_lower, bne,
        map_toLower_beq equals]
      rw [← Option.map_some, map_toLower_beq colon]

theorem splitAssignment?_lower (t : Text) :
  splitAssignment? (lower t) = (splitAssignment? t).map (Prod.map lower lower)
  := by
  have colon : IsMark ':' := by decide
  have equals : IsMark '=' := by decide
  rw [splitAssignment?, splitAssignment?, ← map_drop_lower, ← splitWhere_lower]
  · rfl
  · intro prev t
    cases t with
    | nil => rfl
    | cons c t =>
      simp only [lower_cons, List.head?_cons, List.tail_cons, head?_lower, map_toLower_beq equals]
      rw [← Option.map_some, map_toLower_beq colon]

theorem splitClosing?_lower (t : Text) :
  splitClosing? (lower t) = (splitClosing? t).map (Prod.map lower lower)
  := by
  have closing : IsMark ')' := by decide
  rw [splitClosing?_eq, splitClosing?_eq, ← map_drop_lower, ← splitWhere_lower]
  · rfl
  · intro prev t
    rw [head?_lower, map_toLower_beq closing]

theorem any_map_toLower (o : Option Char) :
  (o.map Char.toLower).any isWordChar = o.any isWordChar
  := by
  cases o <;> simp

theorem splitWord?_lower (word t : Text) :
  splitWord? word (lower t) = (splitWord? word t).map (Prod.map lower lower)
  := by
  rw [splitWord?, splitWord?, ← map_drop_lower, ← splitWhere_lower]
  · rfl
  · intro prev t
    rw [isWordAt, isWordAt, ← lower_take, ← lower_drop, sameWord_lower, any_map_toLower,
      head?_lower, any_map_toLower]

/-! ### Parts and words -/

theorem pieces_lower {sep : Char} (hsep : IsMark sep) (n : Nesting) (t : Text) :
  pieces sep n (lower t) = (pieces sep n t).map lower
  := by
  induction t generalizing n with
  | nil => rfl
  | cons c t ih =>
    rw [lower_cons, pieces, pieces, toLower_beq hsep, next_toLower, ih, ih]
    split
    · rfl
    · cases pieces sep (n.next c) t <;> rfl

theorem split_lower {sep : Char} (hsep : IsMark sep) (t : Text) :
  split sep (lower t) = (split sep t).map lower
  := by
  rw [split, split, pieces_lower hsep, List.map_map, List.map_map]
  apply List.map_congr_left
  intro q _
  apply trim_lower

theorem nextWord?_lower (t : Text) :
  nextWord? (lower t) = (nextWord? t).map (Prod.map lower lower)
  := by
  rw [nextWord?, nextWord?, trimStart_lower, takeWhile_lower isWordChar_toLower,
    dropWhile_lower isWordChar_toLower]
  cases t.trimStart.takeWhile isWordChar <;> rfl

theorem stripWord?_lower (word t : Text) :
  stripWord? word (lower t) = (stripWord? word t).map lower
  := by
  rw [stripWord?, stripWord?, nextWord?_lower]
  cases nextWord? t with
  | none => rfl
  | some parts =>
    simp only [Option.map_some, Option.bind_eq_bind, Option.bind_some, Prod.map, sameWord_lower,
      trimStart_lower]
    split <;> rfl

end Testbench.Vhdl
