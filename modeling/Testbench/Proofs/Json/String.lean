import Testbench.Json.Token
import Testbench.Json.Value
import Mathlib.Tactic.Common

/-!
# Strings of JSON

A text that is written as a string is read again: every character is written as itself, as a
short escape or as the code unit of a control character, and each of the three is read as
one piece that stands for the character.
-/

namespace Testbench.Json.Token

variable {c : Char} {n : Nat} {r t : Text} {ps : List Piece}

/-- The piece that is read for a character as it is written: a code unit for the control
characters without a short escape. -/
def piece (c : Char) : Piece :=
  if c.toNat < 0x20 ∧ c ∉ ['\x08', '\t', '\n', '\x0C', '\r'] then .unit c.toNat else .char c

/-- A code unit below the surrogates stands for its character. -/
theorem join?_unit (hn : n < 0xD800) :
  join? (.unit n :: ps) = (join? ps).map (Char.ofNat n :: ·)
  := by
  have other : isLeading n = false ∧ isTrailing n = false := by
    simp [isLeading, isTrailing]
    omega
  rcases ps with _ | ⟨c | m, ps⟩
  · simp [join?, other]
  · simp [join?, other]
  · simp [join?, other]

/-- A character that is written is one piece of a string. -/
theorem join?_piece :
  join? (piece c :: ps) = (join? ps).map (c :: ·)
  := by
  rw [piece]
  split
  · next control =>
    rw [join?_unit (by omega), Char.ofNat_toNat]
  · rw [join?]

/-- The code unit of a control character is read from its escape. -/
theorem number?_digitChar (hn : n < 0x20) :
  Text.number? 16 ['0', '0', Nat.digitChar (n / 16), Nat.digitChar (n % 16)] = some n
  := by
  have all : ∀ n : Fin 0x20,
      Text.number? 16 ['0', '0', Nat.digitChar (n / 16), Nat.digitChar (n % 16)] = some n.val := by
    decide
  apply all ⟨n, hn⟩

/-- A short escape is read as its character. -/
theorem readPieces?_shortEscape {e : Char} (he : e ≠ 'u') (h : shortEscape? e = some c) :
  readPieces? ('\\' :: e :: r) = (readPieces? r).map fun (ps, rest) => (.char c :: ps, rest)
  := by
  rw [readPieces?]
  · rw [h]
    cases readPieces? r <;> rfl
  · rintro a b c d rest rfl
    contradiction

/-- A character that is written is read as its piece. -/
theorem readPieces?_escapedChar :
  readPieces? (escapedChar c ++ r) = (readPieces? r).map fun (ps, rest) => (piece c :: ps, rest)
  := by
  by_cases short : c ∈ ['"', '\\', '\x08', '\t', '\n', '\x0C', '\r']
  · simp only [List.mem_cons, List.not_mem_nil, or_false] at short
    rcases short with rfl | rfl | rfl | rfl | rfl | rfl | rfl
    all_goals apply readPieces?_shortEscape (by decide) rfl
  · simp only [List.mem_cons, List.not_mem_nil, or_false, not_or] at short
    obtain ⟨quote, backslash, backspace, tab, feed, formFeed, return_⟩ := short
    by_cases control : c.toNat < 0x20
    · have escaped : escapedChar c =
          ['\\', 'u', '0', '0', Nat.digitChar (c.toNat / 16), Nat.digitChar (c.toNat % 16)] := by
        simp [escapedChar, quote, backslash, backspace, tab, feed, formFeed, return_, control]
      have unit : piece c = .unit c.toNat := by
        simp [piece, backspace, tab, feed, formFeed, return_, control]
      rw [escaped, unit]
      simp only [List.cons_append, List.nil_append]
      rw [readPieces?, number?_digitChar control]
      cases readPieces? r <;> rfl
    · have escaped : escapedChar c = [c] := by
        simp [escapedChar, quote, backslash, backspace, tab, feed, formFeed, return_, control]
      have char : piece c = .char c := by
        simp [piece, control]
      rw [escaped, char, List.singleton_append, readPieces?]
      · rw [if_neg (by simp [backslash, control])]
        cases readPieces? r <;> rfl
      · apply quote
      · intro a b c d rest h
        contradiction
      · intro e rest h
        contradiction

/-- A string that is written is read again, whatever follows it. -/
theorem readString?_escaped (t r : Text) :
  readString? (t.flatMap escapedChar ++ '"' :: r) = some (t, r)
  := by
  have pieces : readPieces? (t.flatMap escapedChar ++ '"' :: r) = some (t.map piece, r) := by
    induction t with
    | nil => simp [readPieces?]
    | cons c t ih =>
      rw [List.flatMap_cons, List.append_assoc, readPieces?_escapedChar, ih]
      rfl
  have joined : join? (t.map piece) = some t := by
    clear pieces
    induction t with
    | nil => simp [join?]
    | cons c t ih => rw [List.map_cons, join?_piece, ih, Option.map_some]
  rw [readString?, pieces]
  simp [joined]

end Testbench.Json.Token
