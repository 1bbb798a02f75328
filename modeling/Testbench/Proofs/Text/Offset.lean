import Testbench.Proofs.Text.Bytes
import Testbench.Text.Sentence
import Mathlib.Data.List.Basic

/-!
# Offsets

A place in a text is told by its offset, the number of bytes in UTF-8 of what stands before it.
Not every number is the offset of a place: it may lie inside of a character or behind the end.
`slice` is the part of a text between two offsets.  Where there is no such part that is a
`Misstep`, and so is a difference that would be negative.
-/

namespace Testbench

/-- What can go wrong for one who counts bytes: a text is cut where it has no place or back to an
earlier one, or a count falls below zero. -/
inductive Misstep where
  | cut
  | count
  deriving DecidableEq

/-- What is left of a number when another one, which must not be greater, is taken from it. -/
def less (m n : Nat) : Except Misstep Nat :=
  if n ≤ m then .ok (m - n) else .error .count

theorem less_add (m n : Nat) :
  less (m + n) n = .ok m
  := by
  rw [less, if_pos (Nat.le_add_left n m), Nat.add_sub_cancel]

namespace Text

/-- The texts before and behind the place with an offset, if there is one. -/
def cutAt? : Nat → Text → Option (Text × Text)
  | 0, t => some ([], t)
  | _ + 1, [] => none
  | i + 1, c :: t =>
      if c.utf8Size ≤ i + 1 then
        (cutAt? (i + 1 - c.utf8Size) t).map fun (before, rest) => (c :: before, rest)
      else none

/-- The part of a text between the places with two offsets, if there are such places and the first
one is not behind the second. -/
def slice? (t : Text) (i j : Nat) : Option Text := do
  let (before, _) ← cutAt? j t
  let (_, part) ← cutAt? i before
  return part

/-- The part of a text between two offsets. -/
def slice (t : Text) (i j : Nat) : Except Misstep Text :=
  match t.slice? i j with
  | some part => .ok part
  | none => .error .cut

/-- The part of a text before an offset. -/
def sliceTo (t : Text) (j : Nat) : Except Misstep Text := t.slice 0 j

/-- The part of a text from an offset on. -/
def sliceFrom (t : Text) (i : Nat) : Except Misstep Text := t.slice i t.byteCount

/-- The offset of the first character with a property, if there is one. -/
def offsetWhere? (p : Char → Bool) : Text → Option Nat
  | [] => none
  | c :: t => if p c then some 0 else (offsetWhere? p t).map (c.utf8Size + ·)

@[simp]
theorem byteCount_nil :
  byteCount [] = 0
  := rfl

@[simp]
theorem byteCount_cons (c : Char) (t : Text) :
  byteCount (c :: t) = c.utf8Size + t.byteCount
  := rfl

@[simp]
theorem byteCount_append (s t : Text) :
  (s ++ t).byteCount = s.byteCount + t.byteCount
  := by
  induction s with
  | nil => exact (Nat.zero_add _).symm
  | cons c s ih => rw [List.cons_append, byteCount, byteCount, ih, Nat.add_assoc]

/-- A text takes no bytes exactly if it is empty. -/
theorem byteCount_eq_zero_iff {t : Text} :
  t.byteCount = 0 ↔ t = []
  := by
  cases t with
  | nil => simp [byteCount]
  | cons c t =>
    have := c.utf8Size_pos
    simp only [byteCount, reduceCtorEq, iff_false]
    omega

/-- Behind the bytes of a first part a text is cut into this part and the rest. -/
theorem cutAt?_append (before rest : Text) :
  cutAt? before.byteCount (before ++ rest) = some (before, rest)
  := by
  induction before with
  | nil =>
    cases rest with
    | nil => rfl
    | cons c rest => rfl
  | cons c before ih =>
    obtain ⟨k, size⟩ : ∃ k, c.utf8Size = k + 1 := ⟨c.utf8Size - 1, by have := c.utf8Size_pos; omega⟩
    have offset : (byteCount (c :: before)) = k + byteCount before + 1 := by
      rw [byteCount, size]
      omega
    have behind : k + byteCount before + 1 - (k + 1) = byteCount before := by omega
    rw [offset, List.cons_append, cutAt?, size, if_pos (by omega), behind, ih]
    rfl

/-- A text is cut at an offset exactly if this is the number of bytes of its first part. -/
theorem cutAt?_eq_some_iff {i : Nat} {t before rest : Text} :
  cutAt? i t = some (before, rest) ↔ t = before ++ rest ∧ before.byteCount = i
  := by
  constructor
  · intro h
    induction t generalizing i before with
    | nil =>
      cases i with
      | zero =>
        obtain ⟨rfl, rfl⟩ : [] = before ∧ [] = rest := by simpa [cutAt?] using h
        exact ⟨rfl, rfl⟩
      | succ i => simp [cutAt?] at h
    | cons c t ih =>
      cases i with
      | zero =>
        obtain ⟨rfl, rfl⟩ : [] = before ∧ c :: t = rest := by simpa [cutAt?] using h
        exact ⟨rfl, rfl⟩
      | succ i =>
        rw [cutAt?] at h
        split at h
        · next fits =>
          simp only [Option.map_eq_some_iff, Prod.exists, Prod.mk.injEq] at h
          obtain ⟨before, rest, h, rfl, rfl⟩ := h
          obtain ⟨rfl, size⟩ := ih h
          refine ⟨rfl, ?_⟩
          rw [byteCount, size]
          omega
        · simp at h
  · rintro ⟨rfl, rfl⟩
    exact cutAt?_append before rest

/-- A text has the part between two offsets exactly if they are the numbers of bytes before the part
and up to its end. -/
theorem slice?_eq_some_iff {t part : Text} {i j : Nat} :
  t.slice? i j = some part ↔
    ∃ before rest, t = before ++ (part ++ rest) ∧ before.byteCount = i ∧
      before.byteCount + part.byteCount = j
  := by
  rw [slice?]
  simp only [Option.bind_eq_bind, Option.bind_eq_some_iff, Prod.exists, cutAt?_eq_some_iff]
  constructor
  · rintro ⟨-, rest, ⟨rfl, rfl⟩, before, part, ⟨rfl, rfl⟩, eq⟩
    obtain rfl := Option.some.inj eq
    exact ⟨before, rest, by rw [List.append_assoc], rfl, by rw [byteCount_append]⟩
  · rintro ⟨before, rest, rfl, rfl, rfl⟩
    exact ⟨before ++ part, rest, ⟨by rw [List.append_assoc], byteCount_append before part⟩, before,
      part, ⟨rfl, rfl⟩, rfl⟩

theorem slice_eq_ok_iff {t part : Text} {i j : Nat} :
  t.slice i j = .ok part ↔
    ∃ before rest, t = before ++ (part ++ rest) ∧ before.byteCount = i ∧
      before.byteCount + part.byteCount = j
  := by
  rw [← slice?_eq_some_iff, slice]
  cases t.slice? i j <;> simp

/-- Behind the bytes of a first part a text has the other part and no other one. -/
theorem eq_of_append_eq {a b s r : Text} (h : a ++ s = b ++ r) (size : a.byteCount = b.byteCount) :
  a = b ∧ s = r
  := by
  have cut := cutAt?_append a s
  rw [h, size, cutAt?_append] at cut
  obtain ⟨rfl, rfl⟩ := Prod.mk.inj (Option.some.inj cut)
  exact ⟨rfl, rfl⟩

/-- Of two first parts of a text the one that takes more bytes begins with the other one. -/
theorem exists_of_append_eq {a b s r : Text} (h : a ++ s = b ++ r)
    (order : a.byteCount ≤ b.byteCount) :
  ∃ m, b = a ++ m ∧ s = m ++ r
  := by
  rcases List.append_eq_append_iff.1 h with ⟨m, eq, eq'⟩ | ⟨m, rfl, rfl⟩
  · exact ⟨m, eq, eq'⟩
  · obtain rfl : m = [] := by
      rw [← byteCount_eq_zero_iff]
      rw [byteCount_append] at order
      omega
    exact ⟨[], by simp, rfl⟩

/-- An offset is a place of a text when it is the number of bytes of a first part of it. -/
def IsPlace (t : Text) (i : Nat) : Prop :=
  ∃ before rest, t = before ++ rest ∧ before.byteCount = i

/-- A text has a part between two offsets exactly if both are places in it, the second not before
the first. -/
theorem exists_slice_iff {t : Text} {i j : Nat} :
  (∃ part, t.slice i j = .ok part) ↔
    i ≤ j ∧ j ≤ t.byteCount ∧ t.IsPlace i ∧ t.IsPlace j
  := by
  simp only [slice_eq_ok_iff]
  constructor
  · rintro ⟨part, before, rest, rfl, rfl, rfl⟩
    refine ⟨Nat.le_add_right _ _, ?_, ⟨before, part ++ rest, rfl, rfl⟩, before ++ part, rest, ?_,
      ?_⟩
    · rw [← List.append_assoc, byteCount_append, byteCount_append]
      exact Nat.le_add_right _ _
    · rw [List.append_assoc]
    · rw [byteCount_append]
  · rintro ⟨order, -, ⟨a, r, rfl, rfl⟩, b, rest, split, rfl⟩
    obtain ⟨part, rfl, rfl⟩ := exists_of_append_eq split order
    exact ⟨part, a, rest, rfl, rfl, (byteCount_append a part).symm⟩

/-! ### Parts at the end of a text -/

/-- The offset at which the last part of a text begins. -/
def offset (t rest : Text) : Nat := t.byteCount - rest.byteCount

@[simp]
theorem offset_append (before rest : Text) :
  (before ++ rest).offset rest = before.byteCount
  := by
  rw [offset, byteCount_append, Nat.add_sub_cancel]

@[simp]
theorem offset_self (t : Text) :
  t.offset t = 0
  := Nat.sub_self _

section

variable {t part rest : Text} (h : part ++ rest <:+ t)
include h

/-- Behind a part the offset is greater by the number of its bytes. -/
theorem offset_add_byteCount :
  t.offset (part ++ rest) + part.byteCount = t.offset rest
  := by
  obtain ⟨before, rfl⟩ := h
  rw [offset_append, ← List.append_assoc, offset_append, byteCount_append]

/-- A part is cut out of a text between the offsets at its ends. -/
theorem slice_offset :
  t.slice (t.offset (part ++ rest)) (t.offset rest) = .ok part
  := by
  obtain ⟨before, rfl⟩ := h
  rw [offset_append, ← List.append_assoc, offset_append, slice_eq_ok_iff]
  exact ⟨before, rest, List.append_assoc before part rest, rfl, (byteCount_append before part).symm⟩

end

/-- Behind a character the offset is greater by the number of its bytes. -/
theorem offset_add_utf8Size {t rest : Text} {c : Char} (h : c :: rest <:+ t) :
  t.offset (c :: rest) + c.utf8Size = t.offset rest
  := offset_add_byteCount (show [c] ++ rest <:+ t from h)

/-- From its offset on a text is cut into its last part. -/
theorem sliceFrom_offset {t rest : Text} (h : rest <:+ t) :
  t.sliceFrom (t.offset rest) = .ok rest
  := by
  obtain ⟨before, rfl⟩ := h
  rw [sliceFrom, slice_eq_ok_iff, offset_append]
  exact ⟨before, [], by simp, rfl, (byteCount_append before rest).symm⟩

/-- Up to the number of its bytes a text is cut into its first part. -/
theorem sliceTo_append (before rest : Text) :
  (before ++ rest).sliceTo before.byteCount = .ok before
  := by
  rw [sliceTo, slice_eq_ok_iff]
  exact ⟨[], rest, rfl, rfl, Nat.zero_add _⟩

theorem sliceFrom_append (before rest : Text) :
  (before ++ rest).sliceFrom before.byteCount = .ok rest
  := by
  have cut := sliceFrom_offset (List.suffix_append before rest)
  rwa [offset_append] at cut

/-! ### Bytes and characters -/

/-- A text of ASCII characters takes as many bytes as it has characters. -/
theorem byteCount_eq_length {t : Text} (h : ∀ c ∈ t, c.toNat < 128) :
  t.byteCount = t.length
  := by
  induction t with
  | nil => rfl
  | cons c t ih =>
    have ascii : c.val ≤ 127 := Nat.le_of_lt_succ (h c List.mem_cons_self)
    have further := ih fun d hd => h d (List.mem_cons_of_mem c hd)
    rw [byteCount, Char.utf8Size_eq_one_iff.2 ascii, further, List.length_cons, Nat.add_comm]

/-- The first character without a property stands behind the longest start of characters that have
it, or there is none and the start is the whole text. -/
theorem offsetWhere?_getD (p : Char → Bool) (t : Text) :
  (t.offsetWhere? fun c => !p c).getD t.byteCount = byteCount (t.takeWhile p)
  := by
  induction t with
  | nil => rfl
  | cons c t ih =>
    rw [offsetWhere?]
    by_cases hc : p c
    · rw [if_neg (by simpa using hc), List.takeWhile_cons_of_pos hc, byteCount, byteCount, ← ih]
      cases offsetWhere? (fun c => !p c) t <;> rfl
    · rw [if_pos (by simpa using hc), List.takeWhile_cons_of_neg hc]
      rfl

/-- The bytes of a text are as many as it takes. -/
theorem length_bytes (t : Text) :
  t.bytes.length = t.byteCount
  := by
  induction t with
  | nil => rfl
  | cons c t ih =>
    rw [bytes, List.flatMap_cons, List.length_append, String.length_utf8EncodeChar, byteCount, ← ih]
    rfl

/-- A character of ASCII is the first byte of no other character. -/
theorem head?_utf8EncodeChar_iff {c d : Char} (hd : d.toNat < 128) :
  (String.utf8EncodeChar c).head? = some d.toUInt8 ↔ c = d
  := by
  have same : c = d ↔ c.val.toNat = d.toNat := by
    rw [Char.ext_iff, ← UInt32.toNat_inj]
    rfl
  have byte : d.toUInt8 = UInt8.ofNat d.toNat := rfl
  have bound : c.val.toNat < 0x110000 := by
    have := c.valid
    simp only [UInt32.isValidChar, Nat.isValidChar] at this
    omega
  rw [same, byte]
  simp only [String.utf8EncodeChar]
  generalize c.val.toNat = m at *
  generalize d.toNat = n at *
  -- one case for each number of bytes; the first of several is not below 128
  split_ifs
  all_goals simp (disch := omega) only [List.head?_cons, Option.some.injEq, ofNat_inj]
  all_goals omega

/-- The byte behind a part of a text is that of an ASCII character exactly if this character
follows. -/
theorem getElem?_bytes_iff {before rest : Text} {d : Char} (hd : d.toNat < 128) :
  (before ++ rest).bytes[before.byteCount]? = some d.toUInt8 ↔ rest.head? = some d
  := by
  have front : (before ++ rest).bytes = before.bytes ++ rest.bytes := List.flatMap_append
  rw [front, ← length_bytes, List.getElem?_append_right (Nat.le_refl _), Nat.sub_self,
    ← List.head?_eq_getElem?]
  cases rest with
  | nil => simp [bytes]
  | cons c rest =>
    rw [bytes, List.flatMap_cons, List.head?_append_of_ne_nil _ String.utf8EncodeChar_ne_nil,
      head?_utf8EncodeChar_iff hd]
    simp

end Text

end Testbench
