import Testbench.Text.Blank
import Testbench.Text.Case
import Testbench.Vhdl.Character

/-!
# Nesting

A reader of VHDL source counts the parentheses that are open and knows whether it is in
a string; this is its `Nesting`.  A character is at the outer level when no parenthesis
and no string is open before it.  A closing parenthesis that closes nothing leaves the
reader at the outer level.

Searching in source goes through `splitWhere`, which finds the first place at the outer
level with a given property and returns the text before and the text from there on.  The
functions built on it find a colon, an assignment and a whole word, and `split` cuts a text
at every separator at the outer level.  The end of a parenthesis is found by `closeFrom`,
which counts by itself and stops when it would count below zero.
-/

namespace Testbench.Vhdl

/-- The number of open parentheses, and whether a string is open. -/
structure Nesting where
  depth : Nat
  quoted : Bool
  deriving DecidableEq

namespace Nesting

/-- No parenthesis and no string is open. -/
def outer : Nesting := ⟨0, false⟩

/-- Whether no parenthesis and no string is open. -/
def isOuter (n : Nesting) : Bool := n.depth == 0 && !n.quoted

/-- The nesting behind a character. -/
def next (n : Nesting) (c : Char) : Nesting :=
  if c = '"' then { n with quoted := !n.quoted }
  else if n.quoted then n
  else if c = '(' then { n with depth := n.depth + 1 }
  else if c = ')' then { n with depth := n.depth - 1 }
  else n

/-- The nesting behind a text. -/
def after (n : Nesting) (t : Text) : Nesting := t.foldl next n

@[simp]
theorem isOuter_outer :
  outer.isOuter
  := rfl

/-- The outer level is the nesting at which nothing is open. -/
theorem isOuter_iff {n : Nesting} :
  n.isOuter ↔ n = outer
  := by
  rcases n with ⟨d, q⟩
  simp [isOuter, outer]

@[simp]
theorem after_nil (n : Nesting) :
  n.after [] = n
  := rfl

@[simp]
theorem after_cons (n : Nesting) (c : Char) (t : Text) :
  n.after (c :: t) = (n.next c).after t
  := rfl

@[simp]
theorem after_append (n : Nesting) (s t : Text) :
  n.after (s ++ t) = (n.after s).after t
  := List.foldl_append

end Nesting

/-! ### The first place at the outer level -/

/-- Splits a text at the first place at the outer level where `p` holds of the character
before it, if any, and of the text from there on. -/
def splitWhere (p : Option Char → Text → Bool) :
    Nesting → Option Char → Text → Option (Text × Text)
  | _, _, [] => none
  | n, prev, c :: r =>
      if n.isOuter && p prev (c :: r) then some ([], c :: r)
      else (splitWhere p (n.next c) (some c) r).map fun (before, rest) => (c :: before, rest)

/-- The two parts of a split make up the text. -/
theorem splitWhere_append {p : Option Char → Text → Bool} {n : Nesting} {prev : Option Char}
    {t before rest : Text} (h : splitWhere p n prev t = some (before, rest)) :
  before ++ rest = t
  := by
  induction t generalizing n prev before rest with
  | nil => simp [splitWhere] at h
  | cons c r ih =>
    rw [splitWhere] at h
    split at h
    · simp only [Option.some.injEq, Prod.mk.injEq] at h
      obtain ⟨rfl, rfl⟩ := h
      rfl
    · simp only [Option.map_eq_some_iff, Prod.exists, Prod.mk.injEq] at h
      obtain ⟨before', rest', h', rfl, rfl⟩ := h
      rw [List.cons_append, ih h']

/-- The text from the place of a split on is not longer than the whole. -/
theorem length_rest_le_of_splitWhere {p : Option Char → Text → Bool} {n : Nesting}
    {prev : Option Char} {t before rest : Text}
    (h : splitWhere p n prev t = some (before, rest)) :
  rest.length ≤ t.length
  := by
  rw [← splitWhere_append h, List.length_append]
  exact Nat.le_add_left _ _

/-- A place that is found is not the end of the text. -/
theorem rest_ne_nil_of_splitWhere {p : Option Char → Text → Bool} {n : Nesting}
    {prev : Option Char} {t before rest : Text}
    (h : splitWhere p n prev t = some (before, rest)) :
  rest ≠ []
  := by
  induction t generalizing n prev before rest with
  | nil => simp [splitWhere] at h
  | cons c r ih =>
    rw [splitWhere] at h
    split at h
    · simp only [Option.some.injEq, Prod.mk.injEq] at h
      simp [← h.2]
    · simp only [Option.map_eq_some_iff, Prod.exists, Prod.mk.injEq] at h
      obtain ⟨before', rest', h', -, rfl⟩ := h
      exact ih h'

/-! ### Colons and words -/

/-- The texts around the first colon at the outer level that does not begin `:=`. -/
def splitColon? (t : Text) : Option (Text × Text) :=
  (splitWhere (fun _ r => r.head? == some ':' && r.tail.head? != some '=') .outer none t).map
    fun (before, rest) => (before, rest.drop 1)

/-- The texts around the first `:=` at the outer level. -/
def splitAssignment? (t : Text) : Option (Text × Text) :=
  (splitWhere (fun _ r => r.head? == some ':' && r.tail.head? == some '=') .outer none t).map
    fun (before, rest) => (before, rest.drop 2)

/-- Whether `word` stands at the start of a text, up to case, between characters that do
not continue it. -/
def isWordAt (word : Text) (prev : Option Char) (t : Text) : Bool :=
  Text.sameWord (t.take word.length) word && !prev.any isWordChar &&
    !(t.drop word.length).head?.any isWordChar

/-- The texts around the first whole word `word` at the outer level, in any case. -/
def splitWord? (word t : Text) : Option (Text × Text) :=
  (splitWhere (isWordAt word) .outer none t).map
    fun (before, rest) => (before, rest.drop word.length)

/-- The text behind a word found by `splitWord?` is shorter when the word is not empty. -/
theorem length_lt_of_splitWord? {word t before rest : Text} (nonempty : word ≠ [])
    (h : splitWord? word t = some (before, rest)) :
  rest.length < t.length
  := by
  simp only [splitWord?, Option.map_eq_some_iff, Prod.exists, Prod.mk.injEq] at h
  obtain ⟨before', rest', h', rfl, rfl⟩ := h
  have positive : 0 < word.length := List.length_pos_iff.2 nonempty
  have bound := length_rest_le_of_splitWhere h'
  have := List.length_pos_iff.2 (rest_ne_nil_of_splitWhere h')
  rw [List.length_drop]
  omega

/-! ### The end of a parenthesis -/

/-- How the search for the end of a parenthesis ends: with the text inside and the text
behind it, at the end of the text, or at a closing parenthesis when none is open. -/
inductive Closing where
  | found (inside rest : Text)
  | missing
  | unopened
  deriving DecidableEq

/-- The end of a search that began one character earlier. -/
def Closing.behind (c : Char) : Closing → Closing
  | found inside rest => found (c :: inside) rest
  | e => e

/-- Searches for the parenthesis that closes the first of `depth` open ones; `quoted` tells
whether a string is open. -/
def closeFrom (depth : Nat) (quoted : Bool) : Text → Closing
  | [] => .missing
  | c :: r =>
      if quoted then (closeFrom depth (c != '"') r).behind c
      else if c = '"' then (closeFrom depth true r).behind c
      else if c = '(' then (closeFrom (depth + 1) false r).behind c
      else if c = ')' then
        if depth = 0 then .unopened
        else if depth - 1 = 0 then .found [] r
        else (closeFrom (depth - 1) false r).behind c
      else (closeFrom depth false r).behind c

/-- The text inside a parenthesis, and the text behind it, of a text that begins behind
the opening parenthesis. -/
def splitClosing? (t : Text) : Option (Text × Text) :=
  match closeFrom 1 false t with
  | .found inside rest => some (inside, rest)
  | _ => none

/-! ### Splitting at separators -/

/-- The pieces of a text between the separators at the outer level, from a nesting on. -/
def pieces (sep : Char) : Nesting → Text → List Text
  | _, [] => [[]]
  | n, c :: r =>
      if n.isOuter && c == sep then [] :: pieces sep n r
      else
        match pieces sep (n.next c) r with
        | [] => [[c]]
        | piece :: more => (c :: piece) :: more

/-- The trimmed pieces of a text between the separators at the outer level. -/
def split (sep : Char) (t : Text) : List Text := (pieces sep .outer t).map Text.trim

/-! ### Words at the start -/

/-- The word that a text begins with behind its blanks, and the text behind the word. -/
def nextWord? (t : Text) : Option (Text × Text) :=
  match t.trimStart.takeWhile isWordChar with
  | [] => none
  | word => some (word, t.trimStart.dropWhile isWordChar)

/-- The text behind the word `word` and the blanks that follow it, if the text begins
with this word up to case. -/
def stripWord? (word t : Text) : Option Text := do
  let (found, rest) ← nextWord? t
  if Text.sameWord found word then some rest.trimStart else none

end Testbench.Vhdl
