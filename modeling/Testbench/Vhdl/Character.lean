import Testbench.Text.Basic

/-!
# Characters of VHDL source

The classes of characters from which the lexical elements of VHDL are built.  Letters
and digits are those of ASCII: a basic identifier holds no others.
-/

namespace Testbench.Vhdl

/-- The digits `0` to `9`. -/
def isDigit (c : Char) : Bool := c.isDigit

/-- The letters of ASCII, in either case. -/
def isLetter (c : Char) : Bool := c.isAlpha

/-- The characters that may stand in an identifier behind its first character. -/
def isWordChar (c : Char) : Bool := isLetter c || isDigit c || c == '_'

/-- The separators of lexical elements: space, no-break space and the format effectors. -/
def isSeparator (c : Char) : Bool :=
  c == ' ' || c == '\u00A0' || c == '\t' || c == '\x0B' || c == '\r' || c == '\n' ||
    c == '\x0C'

end Testbench.Vhdl
