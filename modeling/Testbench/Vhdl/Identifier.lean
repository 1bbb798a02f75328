import Testbench.Text.Case
import Testbench.Vhdl.Character

/-!
# Identifiers

A basic identifier is a letter followed by letters, digits and underlines, where an
underline stands neither behind another one nor at the end.  `Identifier.fault?` reads a
text from its start and names the first thing wrong with it; an `Identifier` is a text
without a fault.  Two identifiers are the same when they are equal up to case, and then they
have the same hash.
-/

namespace Testbench.Vhdl

namespace Identifier

/-- What is wrong with a text that is not an identifier. -/
inductive Fault where
  | empty
  | firstChar (c : Char)
  | badChar (c : Char)
  | doubleUnderline
  | trailingUnderline
  deriving DecidableEq

/-- The wording of a fault. -/
def Fault.message : Fault → Text
  | .empty => "empty identifier"
  | .firstChar c => "first character must be letter but found '" ++ [c] ++ "'"
  | .badChar c => "invalid character '" ++ [c] ++ "'"
  | .doubleUnderline => "consecutive underlines are not allowed"
  | .trailingUnderline => "cannot end with an underline"

/-- The first fault of the part of a text behind its first letter, where `underline`
tells whether the character before was an underline. -/
def tailFault? (underline : Bool) : Text → Option Fault
  | [] => if underline then some .trailingUnderline else none
  | c :: r =>
      if !isWordChar c then some (.badChar c)
      else if c == '_' && underline then some .doubleUnderline
      else tailFault? (c == '_') r

/-- The first fault of a text as an identifier. -/
def fault? : Text → Option Fault
  | [] => some .empty
  | c :: r => if isLetter c then tailFault? false r else some (.firstChar c)

end Identifier

/-- A basic identifier, as it is written. -/
structure Identifier where
  text : Text
  valid : Identifier.fault? text = none

namespace Identifier

instance : DecidableEq Identifier := fun a b =>
  decidable_of_iff (a.text = b.text) (by cases a; cases b; simp)

/-- Reads an identifier, or says what is wrong with the text. -/
def ofText (t : Text) : Except Fault Identifier :=
  match h : fault? t with
  | none => .ok ⟨t, h⟩
  | some f => .error f

/-- The form of an identifier that does not depend on case. -/
def key (i : Identifier) : Text := i.text.lower

/-- The number of characters of an identifier. -/
def length (i : Identifier) : Nat := i.text.length

/-- Two identifiers are the same when they are equal up to case. -/
def same (a b : Identifier) : Bool := a.key == b.key

theorem same_iff {a b : Identifier} :
  a.same b ↔ a.key = b.key
  := beq_iff_eq

/-- The number of hashes. -/
def hashLimit : Nat := Nat.pow 2 64

/-- The hash of an identifier is made of its form in lower case. -/
def hash (i : Identifier) : Nat := i.key.foldl (fun h c => (31 * h + c.toNat) % hashLimit) 0

/-- Names that are the same have the same value of `hash`. -/
def Respects (hash : Identifier → Nat) : Prop := ∀ a b : Identifier, a.same b → hash a = hash b

theorem respects_hash :
  Respects hash
  := by
  intro a b h
  rw [hash, hash, same_iff.1 h]

end Identifier

end Testbench.Vhdl
