import Testbench.Text.Case
import Testbench.Vhdl.Normal

/-!
# Tokens of benches

What the check of a bench sees of its source: words in lower case and a few marks.
Comments and the insides of strings are not seen, and other characters only separate
words.
-/

namespace Testbench.Check

open Vhdl

/-- A word in lower case, or a mark. -/
inductive Token where
  | word (t : Text)
  | colon
  | becomes
  | arrow
  | lessEqual
  | dot
  | semicolon
  | opening
  | closing
  deriving DecidableEq

/-- The token of a word that has been read, unless it is empty. -/
def wordToken (word : Text) : List Token := if word = [] then [] else [.word word]

/-- The token of a mark of one character, if it has one. -/
def markToken (c : Char) : List Token :=
  if c = ':' then [.colon]
  else if c = '.' then [.dot]
  else if c = ';' then [.semicolon]
  else if c = '(' then [.opening]
  else if c = ')' then [.closing]
  else []

/-- The tokens of a text that is read inside a string or behind the start of a word. -/
def tokenizeFrom : (quoted : Bool) → (word : Text) → Text → List Token
  | _, word, [] => wordToken word
  | true, word, c :: r => tokenizeFrom (c != '"') word r
  | false, word, ':' :: '=' :: r => wordToken word ++ .becomes :: tokenizeFrom false [] r
  | false, word, '=' :: '>' :: r => wordToken word ++ .arrow :: tokenizeFrom false [] r
  | false, word, '<' :: '=' :: r => wordToken word ++ .lessEqual :: tokenizeFrom false [] r
  | false, word, c :: r =>
      if isWordChar c then tokenizeFrom false (word ++ [c.toLower]) r
      else wordToken word ++ markToken c ++ tokenizeFrom (c == '"') [] r

/-- The tokens of a text without comments. -/
def tokenize (t : Text) : List Token := tokenizeFrom false [] t

/-- The tokens of the source of a bench. -/
def tokens (bench : Text) : List Token := tokenize (normalize bench)

end Testbench.Check
