import Testbench.Text.Basic

/-!
# JSON values

A `Json` is a value of the JSON data format; the members of an object are kept in the
order in which they are written, and a number is kept as it is written.  `Json.pretty`
writes a value with each item and each member on a line of its own, indented by two
spaces a level.
-/

namespace Testbench

/-- A JSON value. -/
inductive Json where
  | null
  | bool (b : Bool)
  | number (t : Text)
  | string (t : Text)
  | array (items : List Json)
  | object (members : List (Text × Json))

namespace Json

/-! ### Writing -/

/-- A character as it stands inside the quotes of a string. -/
def escapedChar (c : Char) : Text :=
  if c = '"' ∨ c = '\\' then ['\\', c]
  else if c = '\x08' then ['\\', 'b']
  else if c = '\t' then ['\\', 't']
  else if c = '\n' then ['\\', 'n']
  else if c = '\x0C' then ['\\', 'f']
  else if c = '\r' then ['\\', 'r']
  else if c.toNat < 0x20 then
    ['\\', 'u', '0', '0', Nat.digitChar (c.toNat / 16), Nat.digitChar (c.toNat % 16)]
  else [c]

/-- A text as a JSON string. -/
def quotedString (t : Text) : Text := ['"'] ++ t.flatMap escapedChar ++ ['"']

/-- The start of a line at a level of indentation. -/
def newLine (level : Nat) : Text := '\n' :: Text.spaces (2 * level)

/-- The items of a list inside brackets, each on a line of its own. -/
def bracketed (opening closing : Char) (level : Nat) (items : List Text) : Text :=
  match items with
  | [] => [opening, closing]
  | _ =>
      [opening] ++ newLine (level + 1) ++ Text.join (',' :: newLine (level + 1)) items ++
        newLine level ++ [closing]

mutual

/-- A value as it is written at a level of indentation. -/
def prettyAt (level : Nat) : Json → Text
  | null => "null"
  | bool b => if b then "true" else "false"
  | number t => t
  | string t => quotedString t
  | array items => bracketed '[' ']' level (prettyItems (level + 1) items)
  | object members => bracketed '\x7b' '\x7d' level (prettyMembers (level + 1) members)

/-- The items of an array as they are written at a level of indentation. -/
def prettyItems (level : Nat) : List Json → List Text
  | [] => []
  | v :: r => prettyAt level v :: prettyItems level r

/-- The members of an object as they are written at a level of indentation. -/
def prettyMembers (level : Nat) : List (Text × Json) → List Text
  | [] => []
  | (k, v) :: r => (quotedString k ++ ": " ++ prettyAt level v) :: prettyMembers level r

end

/-- A value as it is written. -/
def pretty (v : Json) : Text := prettyAt 0 v

/-! ### Parts of values -/

/-- The text of a string. -/
def string? : Json → Option Text
  | string t => some t
  | _ => none

/-- The items of an array. -/
def items? : Json → Option (List Json)
  | array items => some items
  | _ => none

/-- Whether a value is `null`. -/
def isNull : Json → Bool
  | null => true
  | _ => false

/-- The member of an object with a key; of several the last one counts. -/
def member? (key : Text) : Json → Option Json
  | object members => (members.reverse.find? fun (k, _) => k == key).map (·.2)
  | _ => none

end Json

end Testbench
