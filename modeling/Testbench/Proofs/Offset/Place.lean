import Testbench.Proofs.Offset.Search
import Testbench.Proofs.Nesting.Colon
import Testbench.Proofs.Vhdl.Header

/-!
# Offsets of places

The searches by offsets make no misstep and find what the searches that take texts apart find.  A
place that one of these tells by the text from there on, the other one tells by the offset of this
text; so the equations here replace each search by offsets by the other one, in every text and at
each of its places.
-/

namespace Testbench.Vhdl.Offset

open Nesting

variable {keyword t r a s found : Text} {sep c : Char} {n : Nesting}

/-! ### Words at an offset -/

/-- The offset behind the blanks is that of the text without the blanks at its start. -/
theorem skipBlanks_offset (h : r <:+ t) :
  skipBlanks t (t.offset r) = .ok (t.offset r.trimStart)
  := by
  obtain ⟨blanks, parts⟩ : ∃ blanks, blanks ++ r.trimStart = r := ⟨_, r.takeWhile_append_trimStart⟩
  have count : less r.byteCount r.trimStart.byteCount = .ok blanks.byteCount := by
    rw [← less_add, ← Text.byteCount_append, parts]
  have behind : t.offset r + blanks.byteCount = t.offset r.trimStart := by
    have sum := Text.offset_add_byteCount (show blanks ++ r.trimStart <:+ t by rwa [parts])
    rwa [parts] at sum
  refine bind_eq_ok.2 ⟨r, Text.sliceFrom_offset h, bind_eq_ok.2 ⟨_, count, ?_⟩⟩
  rw [behind]
  rfl

/-- The text from the first character on that is no blank is an end of the text. -/
theorem trimStart_isSuffix (h : r <:+ t) :
  r.trimStart <:+ t
  := (List.dropWhile_suffix _).trans h

/-- The next word is the one behind the blanks, and the offset behind it that of what follows. -/
theorem nextWord_offset (h : r <:+ t) :
  nextWord t (t.offset r) = .ok ((nextWord? r).map fun (word, rest) => (word, t.offset rest))
  := by
  have inside := trimStart_isSuffix h
  have remaining : less t.byteCount (t.offset r.trimStart) = .ok r.trimStart.byteCount := by
    obtain ⟨before, eq⟩ := inside
    rw [← eq, Text.offset_append, Text.byteCount_append, Nat.add_comm]
    exact less_add _ _
  have parts : r.trimStart.takeWhile isWordChar ++ r.trimStart.dropWhile isWordChar = r.trimStart :=
    List.takeWhile_append_dropWhile
  refine bind_eq_ok.2 ⟨_, skipBlanks_offset h, bind_eq_ok.2 ⟨_, Text.sliceFrom_offset inside,
    bind_eq_ok.2 ⟨_, remaining, ?_⟩⟩⟩
  rw [Text.offsetWhere?_getD, nextWord?]
  generalize r.trimStart.takeWhile isWordChar = word at parts
  generalize r.trimStart.dropWhile isWordChar = rest at parts
  rw [← parts] at inside ⊢
  cases word with
  | nil => rfl
  | cons c word =>
    have positive : Text.byteCount (c :: word) ≠ 0 := by
      rw [Ne, Text.byteCount_eq_zero_iff]
      exact List.cons_ne_nil c word
    split
    · contradiction
    · rw [Text.offset_add_byteCount inside, Text.slice_offset inside]
      rfl

theorem nextWord_zero (t : Text) :
  nextWord t 0 = .ok ((nextWord? t).map fun (word, rest) => (word, t.offset rest))
  := by
  rw [← nextWord_offset (List.suffix_refl t), Text.offset_self]

/-- A word is stripped by offsets in the same way. -/
theorem stripWord_eq (word t : Text) :
  stripWord word t = .ok (stripWord? word t)
  := by
  rw [stripWord, nextWord_zero, stripWord?]
  cases read : nextWord? t with
  | none => rfl
  | some parts =>
    obtain ⟨found, rest⟩ := parts
    have cut := Text.sliceFrom_offset (isSuffix_of_nextWord? read)
    simp only [Option.map_some, bind, Except.bind, pure, Except.pure, Option.bind]
    split
    · rw [cut]
    · rfl

/-! ### The end of a parenthesis -/

/-- The end of a search as an offset, where the text begins at an offset. -/
def closingOffset (i : Nat) : Closing → Except Misstep (Option Nat)
  | .found inside _ => .ok (some (i + inside.byteCount))
  | .missing => .ok none
  | .unopened => .error .count

theorem closingOffset_behind (i : Nat) (c : Char) (e : Closing) :
  closingOffset i (e.behind c) = closingOffset (i + c.utf8Size) e
  := by
  cases e with
  | found inside rest =>
    rw [Closing.behind, closingOffset, closingOffset, Text.byteCount, Nat.add_assoc]
  | missing => rfl
  | unopened => rfl

/-- The offset of the end of a parenthesis is found where the search that counts finds it, and there
is a misstep exactly where that search meets a parenthesis that closes nothing. -/
theorem closingFrom_eq (depth : Nat) (quoted : Bool) (i : Nat) (t : Text) :
  closingFrom depth quoted i t = closingOffset i (closeFrom depth quoted t)
  := by
  induction t generalizing depth quoted i with
  | nil => rfl
  | cons c t ih =>
    rw [closingFrom, closeFrom]
    split_ifs with hq hquote hopen hclose hzero hone
    all_goals simp only [closingOffset_behind, ih]
    · subst hzero
      rfl
    · have positive : less depth 1 = .ok 0 := by rw [← hone, less, if_pos (by omega)]
      rw [positive]
      rfl
    · have positive : less depth 1 = .ok (depth - 1) := by rw [less, if_pos (by omega)]
      rw [positive]
      simp only [bind, Except.bind, hone, if_false]

/-- The parenthesis that closes the one at an offset is the end of what stands behind that one. -/
theorem findClosing_offset (h : '(' :: r <:+ t) :
  findClosing t (t.offset ('(' :: r)) =
    .ok ((splitClosing? r).map fun (_, rest) => t.offset (')' :: rest))
  := by
  have behind : t.offset ('(' :: r) + 1 = t.offset r := Text.offset_add_utf8Size h
  have opened : closeFrom 0 false ('(' :: r) = (closeFrom 1 false r).behind '(' := rfl
  refine bind_eq_ok.2 ⟨_, Text.sliceFrom_offset h, ?_⟩
  rw [if_pos (by rfl), closingFrom_eq, opened, closingOffset_behind, splitClosing?]
  cases ends : closeFrom 1 false r with
  | unopened => exact absurd ends (closeFrom_ne_unopened Nat.one_pos)
  | missing => rfl
  | found inside rest =>
    have parts : r = inside ++ ')' :: rest := by
      have found : splitClosing? r = some (inside, rest) := by rw [splitClosing?, ends]
      exact (splitClosing?_eq_some_iff.1 found).1
    have place : inside ++ ')' :: rest <:+ t := by
      rw [← parts]
      exact (List.suffix_cons '(' r).trans h
    have there := Text.offset_add_byteCount place
    rw [← parts, ← behind] at there
    exact congrArg (Except.ok ∘ some) there

/-- The text is cut behind the opening parenthesis and at the closing one into what is inside and
what is behind. -/
theorem slice_closing {inside rest : Text} (h : '(' :: r <:+ t)
    (found : splitClosing? r = some (inside, rest)) :
  t.slice (t.offset ('(' :: r) + 1) (t.offset (')' :: rest)) = .ok inside ∧
    t.sliceFrom (t.offset (')' :: rest) + 1) = .ok rest
  := by
  obtain ⟨rfl, -⟩ := splitClosing?_eq_some_iff.1 found
  have behind := (List.suffix_cons '(' (inside ++ ')' :: rest)).trans h
  have closing := (List.suffix_append inside (')' :: rest)).trans behind
  have first : t.offset ('(' :: (inside ++ ')' :: rest)) + 1 = t.offset (inside ++ ')' :: rest) :=
    Text.offset_add_utf8Size h
  have last : t.offset (')' :: rest) + 1 = t.offset rest := Text.offset_add_utf8Size closing
  rw [first, last]
  exact ⟨Text.slice_offset behind, Text.sliceFrom_offset ((List.suffix_cons _ _).trans closing)⟩

/-! ### The first place that is reported -/

/-- The first character with a property is the one with which a text begins, if it is reported and
has the property, or else the first one behind it. -/
theorem find?_reported_cons (mark : Nat × Char → Bool) (n : Nesting) (i : Nat) (c : Char)
    (t : Text) :
  (reported n i (c :: t)).find? mark =
    if n.reports c && mark (i, c) then some (i, c)
    else (reported (n.next c) (i + c.utf8Size) t).find? mark
  := by
  rw [reported]
  by_cases shown : n.reports c
  · rw [if_pos shown, List.find?_cons]
    cases mark (i, c) <;> simp [shown]
  · simp [shown]

/-- The first reported character with a property stands at the first place at the outer level with
another one, if each place where a character is reported with the former is one at the outer level
with the latter. -/
theorem find?_reported {mark : Nat × Char → Bool} {p : Option Char → Text → Bool}
    (h : ∀ (a s : Text) (c : Char) (n : Nesting), t = a ++ c :: s →
      (n.reports c && mark (a.byteCount, c)) = (n.isOuter && p a.getLast? (c :: s))) :
  ((reported .outer 0 t).find? mark).map Prod.fst =
    (splitWhere p .outer none t).map fun (before, _) => before.byteCount
  := by
  have inner : ∀ (s a : Text) (n : Nesting), t = a ++ s →
      ((reported n a.byteCount s).find? mark).map Prod.fst =
        (splitWhere p n a.getLast? s).map fun (before, _) => (a ++ before).byteCount := by
    intro s
    induction s with
    | nil =>
      intros
      rfl
    | cons c s ih =>
      intro a n split
      have further := ih (a ++ [c]) (n.next c) (by rw [split, List.append_assoc]; rfl)
      have size : (a ++ [c]).byteCount = a.byteCount + c.utf8Size := Text.byteCount_append a [c]
      rw [size, List.getLast?_concat] at further
      rw [find?_reported_cons, splitWhere, h a s c n split]
      split
      · simp
      · rw [further, Option.map_map]
        congr 1
        funext parts
        simp
  exact inner t [] .outer rfl

/-! ### Colons and assignments -/

/-- Of the colons exactly those at the outer level are reported, and the byte behind a colon is that
of `=` exactly if this character follows. -/
theorem reports_colon (f : Bool → Bool) (a s : Text) (c : Char) (n : Nesting) :
  (n.reports c && (c == ':' && f ((a ++ c :: s).bytes[a.byteCount + 1]? == some '='.toUInt8))) =
    (n.isOuter && (c == ':' && f (s.head? == some '=')))
  := by
  by_cases colon : c = ':'
  · subst colon
    have byte : ((a ++ ':' :: s).bytes[a.byteCount + 1]? == some '='.toUInt8) =
        (s.head? == some '=') := by
      have split : a ++ ':' :: s = a ++ [':'] ++ s := by rw [List.append_assoc]; rfl
      have size : (a ++ [':']).byteCount = a.byteCount + 1 := Text.byteCount_append a [':']
      rw [Bool.eq_iff_iff, beq_iff_eq, beq_iff_eq, split, ← size]
      exact Text.getElem?_bytes_iff (by decide)
    rw [reports_of_isPlain (by decide), byte]
  · have other : (c == ':') = false := beq_false_of_ne colon
    rw [other, Bool.false_and, Bool.and_false, Bool.false_and, Bool.and_false]

/-- The first colon is found that has what is asked of the character behind it. -/
theorem find?_colon (f : Bool → Bool) (t : Text) :
  ((reported .outer 0 t).find? fun (i, c) =>
      c == ':' && f (t.bytes[i + 1]? == some '='.toUInt8)).map Prod.fst =
    (splitWhere (fun _ r => r.head? == some ':' && f (r.tail.head? == some '=')) .outer none t).map
      fun (before, _) => before.byteCount
  := by
  apply find?_reported
  rintro a s c n rfl
  exact reports_colon f a s c n

theorem findColon_eq (t : Text) :
  findColon t = (splitColon? t).map fun (before, _) => before.byteCount
  := by
  rw [splitColon?, Option.map_map]
  exact find?_colon not t

theorem findAssignment_eq (t : Text) :
  findAssignment t = (splitAssignment? t).map fun (before, _) => before.byteCount
  := by
  rw [splitAssignment?, Option.map_map]
  exact find?_colon id t

/-! ### Separators -/

/-- In a text that is read up to a place, with a part before this place that is not cut off yet, the
parts that remain are the pieces from the place on, the first one behind that part. -/
theorem splitFrom_eq (hsep : IsPlain sep) {ps : List Text} {a q s p : Text}
    (hs : pieces sep n s = p :: ps) :
  splitFrom sep (a ++ (q ++ s)) a.byteCount (reported n (a ++ q).byteCount s) =
    .ok ((q ++ p).trim :: ps.map Text.trim)
  := by
  induction s generalizing a q n p ps with
  | nil =>
    obtain ⟨rfl, rfl⟩ : [] = p ∧ [] = ps := by simpa [pieces] using hs
    exact bind_eq_ok.2 ⟨_, Text.sliceFrom_append a (q ++ []), rfl⟩
  | cons c s ih =>
    have size : (a ++ q).byteCount + c.utf8Size = (a ++ (q ++ [c])).byteCount := by
      rw [← List.append_assoc, Text.byteCount_append (a ++ q)]
      rfl
    by_cases here : n.isOuter ∧ c = sep
    · obtain ⟨isOuter, rfl⟩ := here
      obtain ⟨p', ps', further⟩ : ∃ p' ps', pieces c n s = p' :: ps' :=
        List.exists_cons_of_ne_nil pieces_ne_nil
      rw [pieces, if_pos (by simpa using isOuter), further] at hs
      obtain ⟨rfl, rfl⟩ := List.cons.inj hs
      have shown : n.reports c := by rw [reports_of_isPlain hsep, isOuter]
      have part : (a ++ (q ++ c :: s)).slice a.byteCount (a ++ q).byteCount = .ok q := by
        rw [Text.slice_eq_ok_iff]
        exact ⟨a, c :: s, rfl, rfl, (Text.byteCount_append a q).symm⟩
      have rest := ih (a := a ++ (q ++ [c])) (q := []) further
      rw [List.nil_append, List.append_nil, ← size, List.append_assoc, List.append_assoc] at rest
      rw [reported, if_pos shown, next_of_isPlain hsep, splitFrom, if_pos rfl, List.append_nil]
      exact bind_eq_ok.2 ⟨_, part, bind_eq_ok.2 ⟨_, rest, rfl⟩⟩
    · obtain ⟨p', ps', further⟩ : ∃ p' ps', pieces sep (n.next c) s = p' :: ps' :=
        List.exists_cons_of_ne_nil pieces_ne_nil
      rw [pieces_cons here further] at hs
      obtain ⟨rfl, rfl⟩ := List.cons.inj hs
      have rest := ih (a := a) (q := q ++ [c]) further
      rw [← size, List.append_assoc q, List.append_assoc q] at rest
      rw [reported]
      split
      · next shown =>
        have other : c ≠ sep := by
          rintro rfl
          rw [reports_of_isPlain hsep] at shown
          exact here ⟨shown, rfl⟩
        rw [splitFrom, if_neg other]
        exact rest
      · exact rest

/-- A text is split by offsets into the same parts. -/
theorem split_eq (hsep : IsPlain sep) (t : Text) :
  split sep t = .ok (Vhdl.split sep t)
  := by
  obtain ⟨p, ps, parts⟩ : ∃ p ps, pieces sep outer t = p :: ps :=
    List.exists_cons_of_ne_nil pieces_ne_nil
  rw [Vhdl.split, parts]
  exact splitFrom_eq hsep (a := []) (q := []) parts

/-! ### Keywords -/

/-- A word takes one byte for each of its characters. -/
theorem byteCount_of_isWord (h : IsWord s) :
  s.byteCount = s.length
  := Text.byteCount_eq_length fun c hc => toNat_lt_of_isWordChar (h.forall_mem c hc)

/-- A keyword is spelled in as many bytes as it takes itself. -/
theorem byteCount_of_sameWord (hk : IsWord keyword) (same : found.sameWord keyword) :
  found.byteCount = keyword.byteCount
  := by
  rw [byteCount_of_isWord hk, byteCount_of_isWord (hk.of_sameWord same),
    Text.length_eq_of_sameWord same]

/-- A keyword is spelled at an offset exactly if the text there begins with it, in any case. -/
theorem spells_iff (hk : IsWord keyword) :
  spells keyword (a ++ s) a.byteCount ↔ ∃ found rest, s = found ++ rest ∧ found.sameWord keyword
  := by
  rw [spells, Option.any_eq_true]
  constructor
  · rintro ⟨found, cut, same⟩
    obtain ⟨before, rest, split, size, -⟩ := Text.slice?_eq_some_iff.1 cut
    obtain ⟨rfl, rfl⟩ := Text.eq_of_append_eq split size.symm
    exact ⟨found, rest, rfl, same⟩
  · rintro ⟨found, rest, rfl, same⟩
    refine ⟨found, Text.slice?_eq_some_iff.2 ⟨a, rest, rfl, rfl, ?_⟩, same⟩
    rw [byteCount_of_sameWord hk same]

/-- Whether a keyword that is spelled in a text is a whole word is told by the characters beside
it. -/
theorem isWholeWord_append (hk : IsWord keyword) (same : found.sameWord keyword) (a rest : Text) :
  isWholeWord (a ++ (found ++ rest)) a.byteCount (a.byteCount + keyword.byteCount) =
    .ok (!a.getLast?.any isWordChar && !rest.head?.any isWordChar)
  := by
  have front := Text.sliceTo_append a (found ++ rest)
  have back := Text.sliceFrom_append (a ++ found) rest
  rw [List.append_assoc, Text.byteCount_append, byteCount_of_sameWord hk same] at back
  exact bind_eq_ok.2 ⟨_, front, bind_eq_ok.2 ⟨_, back, rfl⟩⟩

/-- Whether a keyword stands at a place that begins with it is told by the same characters. -/
theorem isWordAt_append_of_sameWord {prev : Option Char} (same : found.sameWord keyword)
    (rest : Text) :
  isWordAt keyword prev (found ++ rest) =
    (!prev.any isWordChar && !rest.head?.any isWordChar)
  := by
  have length := Text.length_eq_of_sameWord same
  rw [isWordAt, List.take_left' length, List.drop_left' length, same, Bool.true_and]

/-- Whether a keyword that is spelled at an offset is a whole word, if this is told without a
misstep. -/
def isWhole (keyword t : Text) (i : Nat) : Bool :=
  (isWholeWord t i (i + keyword.byteCount)).toOption.getD false

/-- Of a candidate it is told without a misstep. -/
theorem isWholeWord_eq (hk : IsWord keyword) {i : Nat} (h : i ∈ candidates keyword t) :
  isWholeWord t i (i + keyword.byteCount) = .ok (isWhole keyword t i)
  := by
  obtain ⟨a, found, rest, rfl, rfl, -, same⟩ := exists_of_mem_candidates h
  rw [isWhole, isWholeWord_append hk same]
  rfl

/-- A character is reported at which a keyword is spelled as a whole word exactly where the keyword
stands at the outer level. -/
theorem reports_keyword (hk : IsWord keyword) (a s : Text) (c : Char) (n : Nesting) :
  (n.reports c && (spells keyword (a ++ c :: s) a.byteCount &&
      isWhole keyword (a ++ c :: s) a.byteCount)) =
    (n.isOuter && isWordAt keyword a.getLast? (c :: s))
  := by
  by_cases spelled : spells keyword (a ++ c :: s) a.byteCount
  · obtain ⟨found, rest, eq, same⟩ := (spells_iff hk).1 spelled
    have letter : isWordChar c := by
      have head := (hk.of_sameWord same).head_append rest
      rwa [← eq] at head
    rw [spelled, Bool.true_and, reports_of_isPlain (isPlain_of_isWordChar letter), eq, isWhole,
      isWholeWord_append hk same, isWordAt_append_of_sameWord same]
    rfl
  · have passed : ¬isWordAt keyword a.getLast? (c :: s) := by
      rw [isWordAt_iff]
      rintro ⟨-, found, rest, eq, same, -⟩
      exact spelled ((spells_iff hk).2 ⟨found, rest, eq, same⟩)
    simp [spelled, passed]

/-- A search among candidates whose property is told without a misstep finds the first that has
it. -/
theorem findM?_eq {p : Nat → Except Misstep Bool} {q : Nat → Bool} {candidates : List Nat}
    (h : ∀ i ∈ candidates, p i = .ok (q i)) :
  candidates.findM? p = .ok (candidates.find? q)
  := by
  induction candidates with
  | nil => rfl
  | cons i candidates ih =>
    have further := ih fun j hj => h j (List.mem_cons_of_mem i hj)
    refine bind_eq_ok.2 ⟨_, h i List.mem_cons_self, ?_⟩
    rw [List.find?_cons]
    cases q i with
    | false => exact further
    | true => rfl

/-- The keyword is found at the place where the text is split at it. -/
theorem findM?_candidates (hk : IsWord keyword) (t : Text) :
  (candidates keyword t).findM? (fun i => isWholeWord t i (i + keyword.byteCount)) =
    .ok ((splitWord? keyword t).map fun (before, _) => before.byteCount)
  := by
  have search : (candidates keyword t).find? (isWhole keyword t) =
      (splitWhere (isWordAt keyword) .outer none t).map fun (before, _) => before.byteCount := by
    rw [candidates, List.find?_map, List.find?_filter]
    apply find?_reported
    rintro a s c n rfl
    rw [← reports_keyword hk]
    simp
  rw [findM?_eq fun i => isWholeWord_eq hk, search, splitWord?, Option.map_map]
  rfl

theorem findKeyword_zero (hk : IsWord keyword) (t : Text) :
  findKeyword keyword t 0 = .ok ((splitWord? keyword t).map fun (before, _) => before.byteCount)
  := by
  have cut := Text.sliceFrom_append [] t
  refine bind_eq_ok.2 ⟨t, cut, bind_eq_ok.2 ⟨_, findM?_candidates hk t, ?_⟩⟩
  cases splitWord? keyword t <;> rfl

/-- The bytes of the keyword lie between the parts into which a text is split at it. -/
theorem byteCount_add_keyword (hk : IsWord keyword) {before rest : Text}
    (split : splitWord? keyword t = some (before, rest)) :
  before.byteCount + keyword.byteCount = t.offset rest
  := by
  obtain ⟨found, rfl, same, -⟩ := (splitWord?_eq_some_iff hk).1 split
  rw [← List.append_assoc, Text.offset_append, Text.byteCount_append, byteCount_of_sameWord hk same]

section

variable (hk : IsWord keyword) (h : r <:+ t)
include hk h

theorem findKeyword_eq_none (absent : splitWord? keyword r = none) :
  findKeyword keyword t (t.offset r) = .ok none
  := by
  refine bind_eq_ok.2 ⟨r, Text.sliceFrom_offset h, bind_eq_ok.2 ⟨_, findM?_candidates hk r, ?_⟩⟩
  rw [absent]
  rfl

/-- A keyword is found at the place where a text is split at it, and what the text is split into is
what stands before this place and behind the bytes of the keyword. -/
theorem findKeyword_eq_some {before rest : Text}
    (split : splitWord? keyword r = some (before, rest)) :
  ∃ found, before ++ (found ++ rest) = r ∧
    findKeyword keyword t (t.offset r) = .ok (some (t.offset (found ++ rest))) ∧
    t.offset (found ++ rest) + keyword.byteCount = t.offset rest
  := by
  obtain ⟨found, rfl, same, -⟩ := (splitWord?_eq_some_iff hk).1 split
  refine ⟨found, rfl, ?_, ?_⟩
  · refine bind_eq_ok.2 ⟨_, Text.sliceFrom_offset h, bind_eq_ok.2 ⟨_, findM?_candidates hk _, ?_⟩⟩
    rw [split, ← Text.offset_add_byteCount h, Nat.add_comm]
    rfl
  · rw [← byteCount_of_sameWord hk same]
    exact Text.offset_add_byteCount ((List.suffix_append _ _).trans h)

end

end Testbench.Vhdl.Offset
