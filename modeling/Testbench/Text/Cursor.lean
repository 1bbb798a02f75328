import Testbench.Text.Basic

/-!
# Cursors

A `Cursor` stands in a text and is told by what is left of it.  `next?` passes one
character, `peek?` looks at it, and `passIf c` passes it when it is `c`.
-/

namespace Testbench

/-- A place in a text: the characters that have not been passed. -/
structure Cursor where
  rest : Text
  deriving DecidableEq

namespace Cursor

/-- The character at the cursor, if the text has not ended. -/
def peek? (c : Cursor) : Option Char := c.rest.head?

/-- The character at the cursor, and the cursor behind it. -/
def next? (c : Cursor) : Option Char × Cursor := (c.peek?, ⟨c.rest.tail⟩)

/-- Whether `x` stands at the cursor, and the cursor behind it if it does. -/
def passIf (x : Char) (c : Cursor) : Bool × Cursor :=
  if c.peek? = some x then (true, ⟨c.rest.tail⟩) else (false, c)

end Cursor

end Testbench
