import Testbench.Layout.Item
import Testbench.Vhdl.Entity

/-!
# Components and instances

`component` declares an entity as a component, and `instantiation` instantiates it with its
generics and ports associated with objects of the same names.
-/

namespace Testbench.Layout

open Vhdl

/-- The items of the generics of an entity. -/
def genericItems (e : Entity) : List Item := e.generics.map Item.ofGeneric

/-- The items of the ports of an entity. -/
def portItems (e : Entity) : List Item := e.ports.map Item.ofPort

/-- The text that `write` makes of a list of items, or nothing for an empty list. -/
def unlessEmpty (items : List Item) (write : List Item → Text) : Text :=
  if items = [] then [] else write items

/-- The declaration of an entity as a component. -/
def component (e : Entity) (style : Style) (depth : Nat) : Text :=
  style.indent depth ++ "component " ++ e.name.text ++ "\n" ++
    unlessEmpty (genericItems e) (interfacePart · "generic" style (depth + 1) ++ "\n") ++
    unlessEmpty (portItems e) (interfacePart · "port" style (depth + 1) ++ "\n") ++
    style.indent depth ++ "end component;\n"

/-- The instantiation of an entity under a label. -/
def instantiation (e : Entity) (label : Text) (style : Style) (depth : Nat) : Text :=
  style.indent depth ++ label ++ " : " ++ e.name.text ++
    unlessEmpty (genericItems e) ("\n" ++ associationPart · "generic" style (depth + 1)) ++
    unlessEmpty (portItems e) ("\n" ++ associationPart · "port" style (depth + 1)) ++
    ";\n"

end Testbench.Layout
