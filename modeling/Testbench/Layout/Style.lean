import Testbench.Text.Basic

/-!
# Styles of layout

A `Style` says how generated VHDL is set: how far a level of indentation moves the text,
and how the colons of declarations and the arrows of associations are placed.  Each
setting may be left open, and an open setting has a default.
-/

namespace Testbench.Layout

/-- Settings of the layout, each of which may be left open. -/
structure Style where
  tabSize : Option Nat
  alignTypes : Option Bool
  typeOffset : Option Nat
  alignMappings : Option Bool
  mappingOffset : Option Nat
  deriving DecidableEq

/-- How the mark behind a column of names is placed: in one column or behind each name,
and how many spaces before it. -/
structure Placement where
  aligned : Bool
  offset : Nat
  deriving DecidableEq

namespace Style

/-- The style that leaves every setting open. -/
def unset : Style := ⟨none, none, none, none, none⟩

/-- The number of spaces of one level of indentation. -/
def tab (s : Style) : Nat := s.tabSize.getD 2

/-- The placement of the colons of declarations. -/
def types (s : Style) : Placement := ⟨s.alignTypes.getD true, s.typeOffset.getD 1⟩

/-- The placement of the arrows of associations. -/
def mappings (s : Style) : Placement := ⟨s.alignMappings.getD true, s.mappingOffset.getD 1⟩

/-- The style in which every setting is set to its default. -/
def standard : Style := ⟨some 2, some true, some 1, some true, some 1⟩

/-- The settings of `s`, and those of `t` where `s` leaves them open. -/
def merge (s t : Style) : Style where
  tabSize := s.tabSize <|> t.tabSize
  alignTypes := s.alignTypes <|> t.alignTypes
  typeOffset := s.typeOffset <|> t.typeOffset
  alignMappings := s.alignMappings <|> t.alignMappings
  mappingOffset := s.mappingOffset <|> t.mappingOffset

/-- The white space at the start of a line at a level of indentation. -/
def indent (s : Style) (level : Nat) : Text := Text.spaces (s.tab * level)

end Style

end Testbench.Layout
