import Testbench.Text.Basic

/-!
# Blanks

`isBlank` holds of the characters with the Unicode property White_Space.  The functions
`trimStart`, `trimEnd` and `trim` remove blanks from the ends of a text, and `firstWord?`
is the first longest run of other characters.
-/

namespace Testbench

/-- A character is blank when it has the Unicode property White_Space. -/
def isBlank (c : Char) : Bool :=
  let n := c.toNat
  (9 ≤ n && n ≤ 13) || n == 0x20 || n == 0x85 || n == 0xA0 || n == 0x1680 ||
    (0x2000 ≤ n && n ≤ 0x200A) || n == 0x2028 || n == 0x2029 || n == 0x202F ||
    n == 0x205F || n == 0x3000

namespace Text

/-- The text without the blanks at its start. -/
def trimStart (t : Text) : Text := t.dropWhile isBlank

/-- The text without the blanks at its end. -/
def trimEnd (t : Text) : Text := (t.reverse.dropWhile isBlank).reverse

/-- The text without the blanks at either end. -/
def trim (t : Text) : Text := trimEnd (trimStart t)

/-- The first longest run of characters that are not blank, if there is one. -/
def firstWord? (t : Text) : Option Text :=
  match (trimStart t).takeWhile (fun c => !isBlank c) with
  | [] => none
  | w => some w

@[simp]
theorem trimStart_nil :
  trimStart [] = []
  := rfl

@[simp]
theorem trim_nil :
  trim [] = []
  := rfl

/-- A text is the blanks dropped from its start followed by the rest. -/
theorem takeWhile_append_trimStart (t : Text) :
  t.takeWhile isBlank ++ trimStart t = t
  := List.takeWhile_append_dropWhile

theorem length_trimStart_le (t : Text) :
  (trimStart t).length ≤ t.length
  := (List.dropWhile_suffix _).length_le

end Text

end Testbench
