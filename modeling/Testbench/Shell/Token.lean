import Testbench.Text.Basic

/-!
# Tokens of shell scripts

`tokens` divides the text of a script into words and operators.  A word is a list of
pieces: characters, which count as quoted or not, and parameters whose values are put in
their place.  A `Scanner` takes the characters of the script one by one.

The shells and their tools serve to run the program in a world together with the simulators
that it calls.  What is shown of the program does not rest on them: it holds for every
behaviour of the programs that are executed.
-/

namespace Testbench.Shell

/-- A piece of a word.  Quotes leave an empty piece, so that a word in quotes is a word
even if nothing stands between them. -/
inductive Piece where
  | char (quoted : Bool) (c : Char)
  | parameter (quoted : Bool) (name : Text)
  | empty
  deriving DecidableEq

/-- A word of a script. -/
abbrev Word := List Piece

/-- A word or an operator.  An operator may have a number right in front of it, which
names a stream. -/
inductive Symbol where
  | word (w : Word)
  | operator (number : Option Char) (t : Text)
  deriving DecidableEq

/-- A symbol and the line on which it ends. -/
structure Token where
  line : Nat
  symbol : Symbol
  deriving DecidableEq

/-- What the next character of a script belongs to.  The modes for parameters and for the
character behind a backslash know whether they are within quotes. -/
inductive Mode where
  | plain
  | comment
  | single
  | double
  | escape (quoted : Bool)
  | dollar (quoted : Bool)
  | name (quoted : Bool) (t : Text)
  | braced (quoted : Bool) (t : Text)
  deriving DecidableEq

/-- The tokens of a script so far, the last one first, the open word, whose last piece is
first, and the open operator. -/
structure Scanner where
  line : Nat
  tokens : List Token
  word : Option Word
  operator : Option (Option Char × Text)
  mode : Mode
  deriving DecidableEq

namespace Scanner

/-- The scanner at the start of a script. -/
def start : Scanner := ⟨1, [], none, none, .plain⟩

/-- Ends the open operator. -/
def endOperator (s : Scanner) : Scanner :=
  match s.operator with
  | some (number, t) =>
      { s with operator := none, tokens := ⟨s.line, .operator number t⟩ :: s.tokens }
  | none => s

/-- Ends the open word and the open operator. -/
def endToken (s : Scanner) : Scanner :=
  let s := s.endOperator
  match s.word with
  | some w => { s with word := none, tokens := ⟨s.line, .word w.reverse⟩ :: s.tokens }
  | none => s

/-- Adds a piece to the open word. -/
def add (s : Scanner) (p : Piece) : Scanner :=
  let s := s.endOperator
  { s with word := some (p :: s.word.getD []) }

/-- The mode outside of parameters. -/
def surrounding (quoted : Bool) : Mode := if quoted then .double else .plain

/-- The operators that have two characters. -/
def longOperators : List Text := ["&&", "||", ">>", ">&", "<&", ";;", "&>"]

/-- Takes a character of an operator. -/
def operate (s : Scanner) (c : Char) : Scanner :=
  match s.operator with
  | some (number, t) =>
      if longOperators.contains (t ++ [c]) then { s with operator := some (number, t ++ [c]) }
      else { s.endOperator with operator := some (none, [c]) }
  | none =>
    match s.word with
    | some [.char false d] =>
        if d.isDigit && (c == '<' || c == '>') then
          { s with word := none, operator := some (some d, [c]) }
        else { s.endToken with operator := some (none, [c]) }
    | _ => { s.endToken with operator := some (none, [c]) }

/-- Takes a character outside of quotes. -/
def plain (s : Scanner) (c : Char) : Scanner :=
  if c = ' ' ∨ c = '\t' then s.endToken
  else if c = '\n' then
    let s := s.endToken
    { s with line := s.line + 1, tokens := ⟨s.line, .operator none ['\n']⟩ :: s.tokens }
  else if c = '#' ∧ s.word = none then { s with mode := .comment }
  else if c = '\x27' then { s.add .empty with mode := .single }
  else if c = '"' then { s.add .empty with mode := .double }
  else if c = '\\' then { s with mode := .escape false }
  else if c = '$' then { s with mode := .dollar false }
  else if ("&|;<>()" : Text).contains c then s.operate c
  else s.add (.char false c)

/-- Takes a character within double quotes. -/
def double (s : Scanner) (c : Char) : Scanner :=
  if c = '"' then { s with mode := .plain }
  else if c = '\\' then { s with mode := .escape true }
  else if c = '$' then { s with mode := .dollar true }
  else s.add (.char true c)

/-- Takes a character that a parameter does not take. -/
def outside (s : Scanner) (quoted : Bool) (c : Char) : Scanner :=
  let s := { s with mode := surrounding quoted }
  if quoted then s.double c else s.plain c

/-- Whether a character can begin the name of a variable. -/
def beginsName (c : Char) : Bool := c.isAlpha || c == '_'

/-- Takes a character behind a backslash. -/
def escaped (s : Scanner) (quoted : Bool) (c : Char) : Scanner :=
  let s := { s with mode := surrounding quoted }
  if c = '\n' then s
  else if quoted && !(['$', '"', '\\', '\x60'].contains c) then
    (s.add (.char true '\\')).add (.char true c)
  else s.add (.char true c)

/-- Takes a character behind a dollar sign. -/
def dollar (s : Scanner) (quoted : Bool) (c : Char) : Scanner :=
  if beginsName c then { s with mode := .name quoted [c] }
  else if c.isDigit || ("@*#?$!-" : Text).contains c then
    { s.add (.parameter quoted [c]) with mode := surrounding quoted }
  else if c = '\x7b' then { s with mode := .braced quoted [] }
  else (s.add (.char quoted '$')).outside quoted c

/-- Takes a character of a script. -/
def take (s : Scanner) (c : Char) : Scanner :=
  match s.mode with
  | .plain => s.plain c
  | .comment => if c = '\n' then { s with mode := .plain }.plain c else s
  | .single => if c = '\x27' then { s with mode := .plain } else s.add (.char true c)
  | .double => s.double c
  | .escape quoted => s.escaped quoted c
  | .dollar quoted => s.dollar quoted c
  | .name quoted t =>
      if beginsName c || c.isDigit then { s with mode := .name quoted (t ++ [c]) }
      else (s.add (.parameter quoted t)).outside quoted c
  | .braced quoted t =>
      if c = '\x7d' then { s.add (.parameter quoted t) with mode := surrounding quoted }
      else { s with mode := .braced quoted (t ++ [c]) }

/-- The tokens at the end of a script. -/
def finish (s : Scanner) : List Token :=
  let s :=
    match s.mode with
    | .dollar quoted => s.add (.char quoted '$')
    | .name quoted t => s.add (.parameter quoted t)
    | _ => s
  s.endToken.tokens.reverse

end Scanner

/-- The tokens of a script. -/
def tokens (t : Text) : List Token := (t.foldl Scanner.take .start).finish

end Testbench.Shell
