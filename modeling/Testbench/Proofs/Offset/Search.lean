import Testbench.Proofs.Nesting.Closing
import Testbench.Proofs.Stage
import Testbench.Proofs.Text.Offset

/-!
# Searching by offsets

The searches of source in a form that keeps the text whole: they are given the offset at which they
begin and tell the offset of what they find, which their callers go on from by adding numbers of
bytes.  Where such a number is no place, cutting the text there is a `Misstep`.
-/

namespace Testbench.Vhdl.Offset

/-- The characters that a reader reports, with their offsets, of a text that begins at an offset. -/
def reported (n : Nesting) (i : Nat) : Text → List (Nat × Char)
  | [] => []
  | c :: t =>
      let further := reported (n.next c) (i + c.utf8Size) t
      if n.reports c then (i, c) :: further else further

/-! ### Separators, colons and assignments -/

/-- The trimmed parts of a text from an offset on, between those of the characters that are
separators. -/
def splitFrom (sep : Char) (t : Text) (start : Nat) :
    List (Nat × Char) → Except Misstep (List Text)
  | [] => return [(← t.sliceFrom start).trim]
  | (i, c) :: marks =>
      if c = sep then do
        let part ← t.slice start i
        return part.trim :: (← splitFrom sep t (i + c.utf8Size) marks)
      else splitFrom sep t start marks

/-- The trimmed parts of a text between the separators at the outer level. -/
def split (sep : Char) (t : Text) : Except Misstep (List Text) :=
  splitFrom sep t 0 (reported .outer 0 t)

/-- The offset of the first colon at the outer level behind which the byte of `=` does not
follow. -/
def findColon (t : Text) : Option Nat :=
  ((reported .outer 0 t).find? fun (i, c) =>
    c == ':' && t.bytes[i + 1]? != some '='.toUInt8).map Prod.fst

/-- The offset of the first colon at the outer level behind which the byte of `=` follows. -/
def findAssignment (t : Text) : Option Nat :=
  ((reported .outer 0 t).find? fun (i, c) =>
    c == ':' && t.bytes[i + 1]? == some '='.toUInt8).map Prod.fst

/-! ### Keywords -/

/-- Whether the characters before and behind the text between two offsets do not continue it as a
word. -/
def isWholeWord (t : Text) (i j : Nat) : Except Misstep Bool := do
  let before ← t.sliceTo i
  let behind ← t.sliceFrom j
  return !before.getLast?.any isWordChar && !behind.head?.any isWordChar

/-- Whether the text at an offset spells a keyword, in any case.  The part of the text that is
compared need not exist, and this is no misstep. -/
def spells (keyword t : Text) (i : Nat) : Bool :=
  (t.slice? i (i + keyword.byteCount)).any fun found => found.sameWord keyword

/-- The offsets of the characters at the outer level at which a text spells a keyword. -/
def candidates (keyword t : Text) : List Nat :=
  ((reported .outer 0 t).filter fun (i, _) => spells keyword t i).map Prod.fst

/-- The offset of the first keyword at the outer level of a text from an offset on. -/
def findKeyword (keyword t : Text) (start : Nat) : Except Misstep (Option Nat) := do
  let rest ← t.sliceFrom start
  let found ← (candidates keyword rest).findM? fun i => isWholeWord rest i (i + keyword.byteCount)
  return found.map (· + start)

/-! ### The end of a parenthesis -/

/-- The offset of the parenthesis that closes the first of `depth` open ones in a text that begins
at an offset; `quoted` tells whether a string is open. -/
def closingFrom (depth : Nat) (quoted : Bool) (i : Nat) : Text → Except Misstep (Option Nat)
  | [] => return none
  | c :: r =>
      if quoted then closingFrom depth (c != '"') (i + c.utf8Size) r
      else if c = '"' then closingFrom depth true (i + c.utf8Size) r
      else if c = '(' then closingFrom (depth + 1) false (i + c.utf8Size) r
      else if c = ')' then do
        let depth ← less depth 1
        if depth = 0 then return some i else closingFrom depth false (i + c.utf8Size) r
      else closingFrom depth false (i + c.utf8Size) r

/-- The offset of the parenthesis that closes the one at an offset, if there is one. -/
def findClosing (t : Text) (opening : Nat) : Except Misstep (Option Nat) := do
  let rest ← t.sliceFrom opening
  if rest.head? = some '(' then closingFrom 0 false opening rest else return none

/-! ### Words at an offset -/

/-- The offset behind the blanks at an offset. -/
def skipBlanks (t : Text) (start : Nat) : Except Misstep Nat := do
  let rest ← t.sliceFrom start
  return start + (← less rest.byteCount rest.trimStart.byteCount)

/-- The word behind the blanks at an offset, and the offset behind the word. -/
def nextWord (t : Text) (start : Nat) : Except Misstep (Option (Text × Nat)) := do
  let first ← skipBlanks t start
  let rest ← t.sliceFrom first
  let remaining ← less t.byteCount first
  match (rest.offsetWhere? fun c => !isWordChar c).getD remaining with
  | 0 => return none
  | n => return some (← t.slice first (first + n), first + n)

/-- The text behind a word and the blanks that follow it, if the text begins with this word up to
case. -/
def stripWord (word t : Text) : Except Misstep (Option Text) := do
  match ← nextWord t 0 with
  | none => return none
  | some (found, behind) =>
    if found.sameWord word then return some (← t.sliceFrom behind).trimStart else return none

/-! ### What is found lies ahead -/

variable {keyword part t word : Text} {start i j : Nat}

/-- A part between two offsets lies in the text, and its end is not before its start. -/
theorem bounds_of_slice (h : t.slice i j = .ok part) :
  i ≤ j ∧ j ≤ t.byteCount
  := by
  obtain ⟨before, rest, rfl, rfl, rfl⟩ := Text.slice_eq_ok_iff.1 h
  rw [Text.byteCount_append, Text.byteCount_append]
  omega

/-- What a search among candidates finds is one of them. -/
theorem mem_of_findM? {p : Nat → Except Misstep Bool} {candidates : List Nat}
    (h : candidates.findM? p = .ok (some i)) :
  i ∈ candidates
  := by
  induction candidates with
  | nil => cases h
  | cons j candidates ih =>
    obtain ⟨found, -, h⟩ := bind_eq_ok.1 h
    cases found with
    | false => exact List.mem_cons_of_mem j (ih h)
    | true =>
      obtain rfl := Option.some.inj (Except.ok.inj h)
      exact List.mem_cons_self

/-- At a candidate the keyword is spelled. -/
theorem exists_of_mem_candidates (h : i ∈ candidates keyword t) :
  ∃ before found rest : Text, t = before ++ (found ++ rest) ∧ before.byteCount = i ∧
    before.byteCount + found.byteCount = i + keyword.byteCount ∧ found.sameWord keyword
  := by
  simp only [candidates, List.mem_map, List.mem_filter, Prod.exists] at h
  obtain ⟨i, c, ⟨-, spelled⟩, rfl⟩ := h
  obtain ⟨found, cut, same⟩ := (Option.any_eq_true _ _).1 spelled
  obtain ⟨before, rest, split, size, behind⟩ := Text.slice?_eq_some_iff.1 cut
  exact ⟨before, found, rest, split, size, behind, same⟩

/-- A keyword is found where the search begins or behind this place, and it ends in the text. -/
theorem bounds_of_findKeyword (h : findKeyword keyword t start = .ok (some i)) :
  start ≤ i ∧ i + keyword.byteCount ≤ t.byteCount
  := by
  obtain ⟨rest, cut, h⟩ := bind_eq_ok.1 h
  obtain ⟨found, searched, h⟩ := bind_eq_ok.1 h
  obtain ⟨j, rfl, rfl⟩ := Option.map_eq_some_iff.1 (Except.ok.inj h)
  obtain ⟨a, spelled, b, rfl, size, behind, -⟩ := exists_of_mem_candidates (mem_of_findM? searched)
  have bound := (bounds_of_slice cut).2
  obtain ⟨before, rest, rfl, rfl, length⟩ := Text.slice_eq_ok_iff.1 cut
  rw [Text.byteCount_append, Text.byteCount_append] at length
  omega

/-- A word ends in the text and behind the place from which on it is read. -/
theorem bounds_of_nextWord (h : nextWord t start = .ok (some (word, i))) :
  start < i ∧ i ≤ t.byteCount
  := by
  obtain ⟨first, skipped, h⟩ := bind_eq_ok.1 h
  obtain ⟨rest, -, h⟩ := bind_eq_ok.1 h
  obtain ⟨remaining, -, h⟩ := bind_eq_ok.1 h
  obtain ⟨_, -, skipped⟩ := bind_eq_ok.1 skipped
  obtain ⟨blanks, -, eq⟩ := bind_eq_ok.1 skipped
  obtain rfl := Except.ok.inj eq
  split at h
  · cases h
  · next positive =>
    obtain ⟨part, sliced, eq⟩ := bind_eq_ok.1 h
    obtain ⟨-, rfl⟩ := Prod.mk.inj (Option.some.inj (Except.ok.inj eq))
    have bound := (bounds_of_slice sliced).2
    have := Nat.pos_of_ne_zero positive
    omega

end Testbench.Vhdl.Offset
