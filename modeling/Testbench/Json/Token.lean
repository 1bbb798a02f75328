import Testbench.Json.Number
import Testbench.Json.Value
import Testbench.Text.Digits

/-!
# Tokens of JSON

The lexical elements of a JSON text: marks, strings, numbers and names.  A string is read
as a list of pieces, which are characters and the UTF-16 code units of `\u` escapes;
units that are surrogates count only in pairs.
-/

namespace Testbench.Json

/-- A lexical element of JSON: a mark, the value of a literal, or a string. -/
inductive Token where
  | openArray
  | closeArray
  | openObject
  | closeObject
  | comma
  | colon
  | literal (v : Json)
  | string (t : Text)

namespace Token

/-! ### Strings -/

/-- A character of a string, or a code unit given by an escape. -/
inductive Piece where
  | char (c : Char)
  | unit (n : Nat)

/-- The character of a short escape. -/
def shortEscape? (c : Char) : Option Char :=
  [('"', '"'), ('\\', '\\'), ('/', '/'), ('b', '\x08'), ('f', '\x0C'), ('n', '\n'), ('r', '\r'),
    ('t', '\t')].lookup c

/-- The pieces of a string up to its closing quote, and the rest. -/
def readPieces? : Text → Option (List Piece × Text)
  | [] => none
  | '"' :: r => some ([], r)
  | '\\' :: 'u' :: a :: b :: c :: d :: r => do
      let n ← Text.number? 16 [a, b, c, d]
      let (pieces, rest) ← readPieces? r
      return (.unit n :: pieces, rest)
  | '\\' :: e :: r => do
      let c ← shortEscape? e
      let (pieces, rest) ← readPieces? r
      return (.char c :: pieces, rest)
  | c :: r =>
      if c = '\\' ∨ c.toNat < 0x20 then none
      else do
        let (pieces, rest) ← readPieces? r
        return (.char c :: pieces, rest)

/-- Whether a code unit is the first of a pair of surrogates. -/
def isLeading (n : Nat) : Bool := 0xD800 ≤ n && n < 0xDC00

/-- Whether a code unit is the second of a pair of surrogates. -/
def isTrailing (n : Nat) : Bool := 0xDC00 ≤ n && n < 0xE000

/-- The text of pieces in which surrogates stand only in pairs. -/
def join? : List Piece → Option Text
  | [] => some []
  | .char c :: r => (join? r).map (c :: ·)
  | .unit n :: .unit m :: r =>
      if isLeading n then
        if isTrailing m then
          (join? r).map (Char.ofNat (0x10000 + (n - 0xD800) * 0x400 + (m - 0xDC00)) :: ·)
        else none
      else if isTrailing n then none
      else (join? (.unit m :: r)).map (Char.ofNat n :: ·)
  | .unit n :: r =>
      if isLeading n || isTrailing n then none else (join? r).map (Char.ofNat n :: ·)

/-- The string that a text begins with behind its opening quote, and the rest. -/
def readString? (t : Text) : Option (Text × Text) := do
  let (pieces, rest) ← readPieces? t
  return (← join? pieces, rest)

/-! ### Tokens -/

/-- The white space of JSON. -/
def isSpace (c : Char) : Bool := c == ' ' || c == '\n' || c == '\t' || c == '\r'

/-- The number that a text begins with as a token, and the rest. -/
def readNumber? (t : Text) : Option (Token × Text) := do
  let (_, rest) ← Number.read? t
  return (.literal (.number (t.take (t.length - rest.length))), rest)

/-- The token that a text begins with, and the rest. -/
def read? : Text → Option (Token × Text)
  | '[' :: r => some (openArray, r)
  | ']' :: r => some (closeArray, r)
  | '\x7b' :: r => some (openObject, r)
  | '\x7d' :: r => some (closeObject, r)
  | ',' :: r => some (comma, r)
  | ':' :: r => some (colon, r)
  | '"' :: r => (readString? r).map fun (t, r) => (string t, r)
  | 'n' :: 'u' :: 'l' :: 'l' :: r => some (literal .null, r)
  | 't' :: 'r' :: 'u' :: 'e' :: r => some (literal (.bool true), r)
  | 'f' :: 'a' :: 'l' :: 's' :: 'e' :: r => some (literal (.bool false), r)
  | t => readNumber? t

/-- The tokens of a text, of which at most `fuel` are read. -/
def readAll? : (fuel : Nat) → Text → Option (List Token)
  | 0, t => if t.dropWhile isSpace = [] then some [] else none
  | fuel + 1, t =>
    match t.dropWhile isSpace with
    | [] => some []
    | t => do
        let (token, rest) ← read? t
        return token :: (← readAll? fuel rest)

/-- The tokens of a text. -/
def ofText? (t : Text) : Option (List Token) := readAll? t.length t

end Token

end Testbench.Json
