import Testbench.Text.Digits
import Testbench.Toml.Number
import Testbench.Toml.Value

/-!
# Lexical elements of TOML

Strings, keys and words as a TOML text writes them.  Every function reads what a text
begins with and returns it with the rest of the text.  A word is a number, a time or a
truth value.
-/

namespace Testbench.Toml

/-- The white space inside a line. -/
def isSpace (c : Char) : Bool := c == ' ' || c == '\t'

/-- Whether a character may stand in a comment or a string: all but control characters
other than the tab. -/
def isPlain (c : Char) : Bool := c == '\t' || (0x20 ≤ c.toNat && c.toNat != 0x7F)

/-- The rest of a text that begins with the end of a line. -/
def newLine? : Text → Option Text
  | '\n' :: r => some r
  | '\r' :: '\n' :: r => some r
  | _ => none

/-! ### Escapes -/

/-- The character with the code point that hexadecimal digits write. -/
def codePoint? (digits : Text) : Option Char := do
  let n ← Text.number? 16 digits
  if h : n.isValidChar then some (Char.ofNatAux n h) else none

/-- The character of an escape behind its backslash. -/
def readEscape? : Text → Option (Char × Text)
  | 'b' :: r => some ('\x08', r)
  | 't' :: r => some ('\t', r)
  | 'n' :: r => some ('\n', r)
  | 'f' :: r => some ('\x0C', r)
  | 'r' :: r => some ('\r', r)
  | '"' :: r => some ('"', r)
  | '\\' :: r => some ('\\', r)
  | 'u' :: r => if r.length < 4 then none else (codePoint? (r.take 4)).map (·, r.drop 4)
  | 'U' :: r => if r.length < 8 then none else (codePoint? (r.take 8)).map (·, r.drop 8)
  | _ => none

/-! ### Strings

The functions below read a string behind its opening quotes.  Their `fuel` bounds the
number of steps; the length of the text is enough. -/

/-- A string on one line with escapes. -/
def readBasic? : (fuel : Nat) → Text → Option (Text × Text)
  | 0, _ => none
  | fuel + 1, t =>
    match t with
    | [] => none
    | '"' :: r => some ([], r)
    | '\\' :: r => do
        let (c, r) ← readEscape? r
        let (s, rest) ← readBasic? fuel r
        return (c :: s, rest)
    | c :: r =>
        if isPlain c then (readBasic? fuel r).map fun (s, rest) => (c :: s, rest) else none

/-- A string on one line without escapes. -/
def readLiteral? : Text → Option (Text × Text)
  | [] => none
  | '\'' :: r => some ([], r)
  | c :: r =>
      if isPlain c then (readLiteral? r).map fun (s, rest) => (c :: s, rest) else none

/-- The quotes that end a string over several lines: three, behind which up to two belong
to the string. -/
def readClosing? (quote : Char) (t : Text) : Option (Text × Text) :=
  let n := (t.takeWhile (· == quote)).length
  if n < 3 then none
  else some (List.replicate (min n 5 - 3) quote, t.drop (min n 5))

/-- The text behind white space and the ends of lines. -/
def skipBlankLines : Text → Text
  | '\n' :: r => skipBlankLines r
  | '\r' :: '\n' :: r => skipBlankLines r
  | c :: r => if isSpace c then skipBlankLines r else c :: r
  | [] => []

/-- The text behind a backslash that ends a line, and behind the blank part of the next
lines. -/
def joinLines? (t : Text) : Option Text := (newLine? (t.dropWhile isSpace)).map skipBlankLines

/-- A string over several lines, with escapes when its quotes are double. -/
def readMultiline? (quote : Char) : (fuel : Nat) → Text → Option (Text × Text)
  | 0, _ => none
  | fuel + 1, t =>
    match readClosing? quote t, newLine? t, t with
    | some found, _, _ => some found
    | none, some r, _ => (readMultiline? quote fuel r).map fun (s, rest) => ('\n' :: s, rest)
    | none, none, [] => none
    | none, none, c :: r =>
        if c = '\\' ∧ quote = '"' then
          match joinLines? r with
          | some r => readMultiline? quote fuel r
          | none => do
            let (c, r) ← readEscape? r
            let (s, rest) ← readMultiline? quote fuel r
            return (c :: s, rest)
        else if isPlain c then
          (readMultiline? quote fuel r).map fun (s, rest) => (c :: s, rest)
        else none

/-- The text behind the opening quotes of a string over several lines, less the end of
the line that they stand on. -/
def afterOpening (t : Text) : Text := (newLine? t).getD t

/-- A string of one line. -/
def readLine? : Text → Option (Text × Text)
  | '"' :: r => readBasic? (r.length + 1) r
  | '\'' :: r => readLiteral? r
  | _ => none

/-- A string. -/
def readString? : Text → Option (Text × Text)
  | '"' :: '"' :: '"' :: r => readMultiline? '"' (r.length + 1) (afterOpening r)
  | '\'' :: '\'' :: '\'' :: r => readMultiline? '\'' (r.length + 1) (afterOpening r)
  | t => readLine? t

/-! ### Keys -/

/-- Whether a character may stand in a key without quotes. -/
def isBareKeyChar (c : Char) : Bool := c.isAlphanum || c == '_' || c == '-'

/-- A key without dots. -/
def readSimpleKey? (t : Text) : Option (Text × Text) :=
  match t.takeWhile isBareKeyChar with
  | [] => readLine? t
  | key => some (key, t.dropWhile isBareKeyChar)

/-- The greatest number of values inside each other, and of the parts of a key. -/
def depthLimit : Nat := 127

/-- A key of at most `most` parts between dots, each of which may be surrounded by white
space. -/
def readParts? : (most : Nat) → Text → Option (List Text × Text)
  | 0, _ => none
  | most + 1, t => do
    let (key, r) ← readSimpleKey? (t.dropWhile isSpace)
    match r.dropWhile isSpace with
    | '.' :: r => (readParts? most r).map fun (keys, rest) => (key :: keys, rest)
    | r => some ([key], r)

/-- A key. -/
def readKey? (t : Text) : Option (List Text × Text) := readParts? depthLimit t

/-! ### Numbers, times and truth values -/

/-- Whether a character may stand in a number, a time or a truth value. -/
def isWordChar (c : Char) : Bool :=
  isBareKeyChar c || c == '+' || c == '.' || c == ':'

/-- Whether a text is a date. -/
def isDate (t : Text) : Bool := (Time.readDate? t).any fun (_, rest) => rest = []

/-- The word of such characters that a text begins with, and the rest.  A date may have its
time of the day in a second word behind a space. -/
def takeWord (t : Text) : Text × Text :=
  let word := t.takeWhile isWordChar
  match t.dropWhile isWordChar with
  | ' ' :: r =>
      if isDate word && r.head?.any Char.isDigit then
        (word ++ ' ' :: r.takeWhile isWordChar, r.dropWhile isWordChar)
      else (word, ' ' :: r)
  | r => (word, r)

/-- The value of a word. -/
def word? (t : Text) : Option Toml :=
  if t = "true" then some (boolean true)
  else if t = "false" then some (boolean false)
  else if isReal t then some real
  else ((integer? t).map integer).or ((Time.ofText? t).map time)

end Testbench.Toml
