import Testbench.Layout.Component
import Testbench.Proofs.Case.Source

/-!
# Layout in either case

The items of an entity in lower case are its items in lower case, and a list of items in lower
case is set in the same columns.  What is written of an entity in lower case is therefore the
same, up to case, as what is written of the entity.
-/

namespace Testbench

open Text

/-! ### Ranges and subtypes -/

namespace Vhdl

theorem Bound.text_lower (b : Bound) :
  b.lower.text = b.text.lower
  := by
  cases b with
  | int n =>
    symm
    apply lower_of_isDigit
    intro c hc
    apply Nat.isDigit_of_mem_toDigits (by decide) (by decide) hc
  | expr t => rfl

theorem Direction.lower_name (d : Direction) :
  Text.lower d.name = d.name
  := by
  cases d <;> rfl

theorem DataType.lower_name (d : DataType) :
  Text.lower d.name = d.name
  := by
  cases d <;> rfl

theorem Range.text_lower (r : Range) :
  r.lower.text = r.text.lower
  := by
  simp [Range.text, Range.lower, Bound.text_lower, Direction.lower_name]

theorem Port.subtype_lower (p : Port) :
  p.lower.subtype = p.subtype.lower
  := by
  unfold subtype
  cases h : p.range with
  | none => simp [Port.lower, h, DataType.lower_name]
  | some r => simp [Port.lower, h, DataType.lower_name, Range.text_lower]

end Vhdl

namespace Layout

open Vhdl

variable {items : List Item} {style : Style} {depth column : Nat} {keyword : Text}

/-! ### Items -/

namespace Item

/-- The item with its texts in lower case. -/
def lower (i : Item) : Item := ⟨i.name.lower, i.mode, i.type.lower, i.value.map Text.lower⟩

theorem ofGeneric_lower (g : Generic) :
  ofGeneric g.lower = (ofGeneric g).lower
  := rfl

theorem ofPort_lower (p : Port) :
  ofPort p.lower = (ofPort p).lower
  := by
  simp only [ofPort, lower, Port.subtype_lower]
  rfl

/-- An item in lower case with a value is, up to case, the item with the value. -/
theorem lower_withValue (i : Item) {v w : Option Text} (h : v.map Text.lower = w.map Text.lower) :
  (i.lower.withValue v).lower = (i.withValue w).lower
  := by
  simp only [withValue, lower, h, lower_lower]

theorem lower_assignment (i : Item) :
  Text.lower i.lower.assignment = Text.lower i.assignment
  := by
  obtain ⟨name, mode, type, value⟩ := i
  cases value <;> simp [assignment, lower]

/-- An item in lower case is set as a member of an interface list in the same columns. -/
theorem lower_interfaceLine (i : Item) :
  Text.lower (i.lower.interfaceLine style column) = Text.lower (i.interfaceLine style column)
  := by
  simp only [interfaceLine, lower_append, lower_assignment]
  simp [lower, Placement.padding, modePart]

theorem lower_declarationLine (i : Item) :
  Text.lower (i.lower.declarationLine keyword style column) =
    Text.lower (i.declarationLine keyword style column)
  := by
  simp only [declarationLine, lower_append, lower_assignment]
  simp [lower, Placement.padding]

theorem lower_associationLine (i : Item) :
  Text.lower (i.lower.associationLine style column) =
    Text.lower (i.associationLine style column)
  := by
  simp [associationLine, lower, Placement.padding]

end Item

/-! ### Lists of items -/

theorem longestName_lower (items : List Item) :
  longestName (items.map Item.lower) = longestName items
  := by
  rw [longestName, longestName, List.map_map]
  simp only [Function.comp_def, Item.lower, length_lower]

/-- Lines that are the same up to case are enclosed in the same way. -/
theorem lower_enclosed {opening separator : Text} {ls ls' : List Text}
    (h : ls.map lower = ls'.map lower) :
  lower (enclosed opening separator ls style depth) =
    lower (enclosed opening separator ls' style depth)
  := by
  have indented : ∀ ls : List Text, (ls.map (style.indent (depth + 1) ++ ·)).map lower =
      (ls.map lower).map (lower (style.indent (depth + 1)) ++ ·) := by
    intro ls
    rw [List.map_map, List.map_map]
    simp only [Function.comp_def, lower_append]
  simp only [enclosed, lower_append, lower_join, indented, h]

theorem lower_interfacePart (items : List Item) :
  lower (interfacePart (items.map Item.lower) keyword style depth) =
    lower (interfacePart items keyword style depth)
  := by
  rw [interfacePart, interfacePart, lower_append, lower_append]
  congr 1
  apply lower_enclosed
  simp only [List.map_map, longestName_lower, Function.comp_def, Item.lower_interfaceLine]

theorem lower_declarationPart (items : List Item) :
  lower (declarationPart (items.map Item.lower) keyword style depth) =
    lower (declarationPart items keyword style depth)
  := by
  simp only [declarationPart, longestName_lower, List.flatMap_map, lower_flatMap, lower_append,
    Item.lower_declarationLine]

theorem lower_associationPart (items : List Item) :
  lower (associationPart (items.map Item.lower) keyword style depth) =
    lower (associationPart items keyword style depth)
  := by
  apply lower_enclosed
  simp only [List.map_map, longestName_lower, Function.comp_def, Item.lower_associationLine]

theorem lower_unlessEmpty {write : List Item → Text}
    (h : ∀ items, lower (write (items.map Item.lower)) = lower (write items))
    (items : List Item) :
  lower (unlessEmpty (items.map Item.lower) write) = lower (unlessEmpty items write)
  := by
  cases items with
  | nil => rfl
  | cons i items => apply h

/-! ### Components and instances -/

theorem genericItems_lower (e : Entity) :
  genericItems e.lower = (genericItems e).map Item.lower
  := by
  simp only [genericItems, Entity.lower, List.map_map, Function.comp_def, Item.ofGeneric_lower]

theorem portItems_lower (e : Entity) :
  portItems e.lower = (portItems e).map Item.lower
  := by
  simp only [portItems, Entity.lower, List.map_map, Function.comp_def, Item.ofPort_lower]

/-- An entity in lower case is declared as a component by the same text, up to case. -/
theorem lower_component (e : Entity) :
  lower (component e.lower style depth) = lower (component e style depth)
  := by
  have part : ∀ (keyword : Text) (items : List Item),
      lower (unlessEmpty (items.map Item.lower)
        (interfacePart · keyword style (depth + 1) ++ "\n")) =
      lower (unlessEmpty items (interfacePart · keyword style (depth + 1) ++ "\n")) := by
    intro keyword items
    apply lower_unlessEmpty
    intro items
    rw [lower_append, lower_append, lower_interfacePart]
  simp only [component, lower_append, genericItems_lower, portItems_lower, part]
  simp [Entity.lower]

theorem lower_instantiation (e : Entity) (label : Text) :
  lower (instantiation e.lower label style depth) = lower (instantiation e label style depth)
  := by
  have part : ∀ (keyword : Text) (items : List Item),
      lower (unlessEmpty (items.map Item.lower)
        ("\n" ++ associationPart · keyword style (depth + 1))) =
      lower (unlessEmpty items ("\n" ++ associationPart · keyword style (depth + 1))) := by
    intro keyword items
    apply lower_unlessEmpty
    intro items
    rw [lower_append, lower_append, lower_associationPart]
  simp only [instantiation, lower_append, genericItems_lower, portItems_lower, part]
  simp [Entity.lower]

end Layout

end Testbench
