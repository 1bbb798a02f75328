import Testbench.Vhdl.Error

/-!
# Entity declarations in source

`EntityText.ofSource` finds the one entity declaration of a source text,
`entity name is body end entity name;`, and returns its name and its body as they are
written.  In the closing part the word `entity` and the name may be missing.
-/

namespace Testbench.Vhdl

/-- The name and the body of an entity declaration, as they are written. -/
structure EntityText where
  name : Text
  body : Text
  deriving DecidableEq

namespace EntityText

/-- The name and the text behind the header `name is` that a text begins with. -/
def readHeader? (t : Text) : Option (Text × Text) := do
  let (name, rest) ← nextWord? t
  let (is, rest) ← nextWord? rest
  if Text.sameWord is "is" then some (name, rest) else none

/-- The name in the first header `entity name is` of a text, and the text behind the
header. -/
def nextHeader? (t : Text) : Option (Text × Text) :=
  match _h : splitWord? "entity" t with
  | none => none
  | some (_, rest) =>
    match readHeader? rest with
    | some header => some header
    | none => nextHeader? rest
termination_by t.length
decreasing_by exact length_lt_of_splitWord? (by decide) _h

/-- What is left behind the first word of a text is shorter than the text. -/
theorem length_lt_of_nextWord? {t word rest : Text} (h : nextWord? t = some (word, rest)) :
  rest.length < t.length
  := by
  rw [nextWord?] at h
  split at h
  · simp at h
  · next ne =>
    simp only [Option.some.injEq, Prod.mk.injEq] at h
    obtain ⟨rfl, rfl⟩ := h
    have parts := congrArg List.length
      (List.takeWhile_append_dropWhile (p := isWordChar) (l := t.trimStart))
    rw [List.length_append] at parts
    have positive := List.length_pos_iff.2 ne
    have bound := t.length_trimStart_le
    omega

theorem length_lt_of_readHeader? {t name rest : Text}
    (h : readHeader? t = some (name, rest)) :
  rest.length < t.length
  := by
  simp only [readHeader?, Option.bind_eq_bind, Option.bind_eq_some_iff, Prod.exists] at h
  obtain ⟨name', rest', h₁, is, rest'', h₂, h⟩ := h
  split at h
  · simp only [Option.some.injEq, Prod.mk.injEq] at h
    obtain ⟨rfl, rfl⟩ := h
    exact Nat.lt_trans (length_lt_of_nextWord? h₂) (length_lt_of_nextWord? h₁)
  · simp at h

/-- What is left behind the first header of a text is shorter than the text. -/
theorem length_lt_of_nextHeader? {t name rest : Text}
    (h : nextHeader? t = some (name, rest)) :
  rest.length < t.length
  := by
  fun_induction nextHeader? t with
  | case1 => simp at h
  | case2 t before behind found header read =>
    obtain rfl : header = (name, rest) := by simpa using h
    exact Nat.lt_trans (length_lt_of_readHeader? read)
      (length_lt_of_splitWord? (by decide) found)
  | case3 t before behind found read ih =>
    exact Nat.lt_trans (ih h) (length_lt_of_splitWord? (by decide) found)

/-- The number of headers in a text. -/
def countHeaders (t : Text) : Nat :=
  match _h : nextHeader? t with
  | none => 0
  | some (_, rest) => countHeaders rest + 1
termination_by t.length
decreasing_by exact length_lt_of_nextHeader? _h

/-- The name in the closing part of a declaration, if it has one, and the text behind it,
of a text that begins behind the word `end`. -/
def readClosing (t : Text) : Option Text × Text :=
  match nextWord? t with
  | none => (none, t)
  | some (word, rest) =>
    if Text.sameWord word "entity" then
      match nextWord? rest with
      | none => (none, rest)
      | some (name, rest) => (some name, rest)
    else (some word, rest)

/-- The one entity declaration of a source text. -/
def ofSource (t : Text) : Except Error EntityText := do
  let some (name, rest) := nextHeader? t | .error .entityNotFound
  let some (body, rest) := splitWord? "end" rest | .error .entityNotFound
  let (closing, rest) := readClosing rest
  match closing.filter fun c => !c.sameWord name with
  | some c => .error (.nameMismatch name c)
  | none =>
    match rest.trimStart with
    | ';' :: rest =>
      match countHeaders rest with
      | 0 => .ok ⟨name, body.trim⟩
      | n => .error (.multipleEntities (n + 1))
    | _ => .error .entityNotFound

end EntityText

end Testbench.Vhdl
