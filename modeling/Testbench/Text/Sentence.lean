import Testbench.Text.Blank

/-!
# Messages inside messages

A message that continues another one begins with a small letter, `continued`, unless its
first word is an abbreviation in capitals.
-/

namespace Testbench

namespace Text

/-- The number of bytes that a text takes. -/
def byteCount : Text → Nat
  | [] => 0
  | c :: r => c.utf8Size + byteCount r

/-- A word is an abbreviation when it takes more than one byte and has no small letter
of ASCII. -/
def isAbbreviation (w : Text) : Bool :=
  1 < byteCount w && w.all fun c => !c.isLower

/-- The text with its first letter made small, unless it begins with an abbreviation. -/
def continued (t : Text) : Text :=
  match t, firstWord? t with
  | c :: r, some w => if isAbbreviation w then c :: r else c.toLower :: r
  | _, _ => t

end Text

end Testbench
