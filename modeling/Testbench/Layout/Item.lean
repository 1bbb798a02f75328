import Testbench.Layout.Style
import Testbench.Vhdl.Generic
import Testbench.Vhdl.Port

/-!
# Items of interface lists

An `Item` is what a list of generics or ports shows of one of its members.  It can be
written as an interface declaration, as the declaration of an object, and as an
association of the member with an object of the same name.  In each of the three the
name is followed by a mark whose place the `Placement` decides, given the length of the
longest name in the list.
-/

namespace Testbench.Layout

open Vhdl

/-- What a list shows of a generic or a port. -/
structure Item where
  name : Text
  mode : Option Mode
  type : Text
  value : Option Text
  deriving DecidableEq

/-- The spaces between a name and the mark behind it, where `column` is the length of
the longest name. -/
def Placement.padding (p : Placement) (column : Nat) (name : Text) : Text :=
  Text.spaces (if p.aligned then column - name.length + p.offset else p.offset)

namespace Item

/-- The item of a generic. -/
def ofGeneric (g : Generic) : Item := ⟨g.name.text, none, g.type, g.default⟩

/-- The item of a port. -/
def ofPort (p : Port) : Item := ⟨p.name.text, some p.mode, p.subtype, p.default⟩

/-- The item with another value, or with none. -/
def withValue (i : Item) (value : Option Text) : Item := { i with value }

/-- The assignment of the value, if the item has one. -/
def assignment (i : Item) : Text :=
  match i.value with
  | some v => " := " ++ v
  | none => []

/-- The mode and the space behind it, if the item has one. -/
def modePart (i : Item) : Text :=
  match i.mode with
  | some m => m.name ++ " "
  | none => []

/-- The item as a member of an interface list. -/
def interfaceLine (i : Item) (style : Style) (column : Nat) : Text :=
  i.name ++ style.types.padding column i.name ++ ": " ++ i.modePart ++ i.type ++ i.assignment

/-- The item as the declaration of an object of the class `keyword`. -/
def declarationLine (i : Item) (keyword : Text) (style : Style) (column : Nat) : Text :=
  keyword ++ " " ++ i.name ++ style.types.padding column i.name ++ ": " ++ i.type ++
    i.assignment ++ ";"

/-- The association of the item with the object of the same name. -/
def associationLine (i : Item) (style : Style) (column : Nat) : Text :=
  i.name ++ style.mappings.padding column i.name ++ "=> " ++ i.name

end Item

/-! ### Lists of items -/

/-- The length of the longest name in a list of items. -/
def longestName (items : List Item) : Nat :=
  (items.map (·.name.length)).foldr max 0

/-- The lines of a list, indented and separated by `separator`, inside the parentheses
of a part that begins with `opening`. -/
def enclosed (opening separator : Text) (lines : List Text) (style : Style) (depth : Nat) :
    Text :=
  style.indent depth ++ opening ++ " (\n" ++
    Text.join (separator ++ "\n") (lines.map (style.indent (depth + 1) ++ ·)) ++ "\n" ++
    style.indent depth ++ ")"

/-- The clause `keyword ( ... );` that declares the items. -/
def interfacePart (items : List Item) (keyword : Text) (style : Style) (depth : Nat) : Text :=
  enclosed keyword ";" (items.map (·.interfaceLine style (longestName items))) style depth ++ ";"

/-- The declarations of the items as objects of the class `keyword`, one a line. -/
def declarationPart (items : List Item) (keyword : Text) (style : Style) (depth : Nat) :
    Text :=
  items.flatMap fun i =>
    style.indent depth ++ i.declarationLine keyword style (longestName items) ++ "\n"

/-- The list `keyword map ( ... )` that associates the items. -/
def associationPart (items : List Item) (keyword : Text) (style : Style) (depth : Nat) :
    Text :=
  enclosed (keyword ++ " map") "," (items.map (·.associationLine style (longestName items)))
    style depth

end Testbench.Layout
