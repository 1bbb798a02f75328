import Testbench.Text.Printable

/-!
# Quoted texts

Messages show a text from outside in quotes, `quoted`: a quote and a backslash stand
behind a backslash, and a character that would not show by itself is written as an
escape.
-/

namespace Testbench

namespace Text

/-- One character as it stands between the quotes. -/
def quotedChar (c : Char) : Text :=
  if c = '\x00' then ['\\', '0']
  else if c = '\t' then ['\\', 't']
  else if c = '\r' then ['\\', 'r']
  else if c = '\n' then ['\\', 'n']
  else if c = '"' || c = '\\' then ['\\', c]
  else if isCombining c || !isPrintable c then
    ['\\', 'u', '\x7b'] ++ Nat.toDigits 16 c.toNat ++ ['\x7d']
  else [c]

/-- The text between quotes, with escapes for what would not show by itself. -/
def quoted (t : Text) : Text := ['"'] ++ t.flatMap quotedChar ++ ['"']

end Text

end Testbench
