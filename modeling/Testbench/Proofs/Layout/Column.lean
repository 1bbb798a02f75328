import Testbench.Layout.Component
import Testbench.Proofs.Text.Offset
import Testbench.Proofs.Vhdl.Entity
import Mathlib.Data.List.Forall2
import Mathlib.Tactic.Common

/-!
# Columns

Behind each name of a list a mark is written: a colon in declarations, an arrow in associations.
When a style aligns the marks they stand in one column, which is told by the longest name of the
list, and otherwise each follows its own name, `Placement.column`.  No name is longer than the
longest one, so that the spaces in front of the marks can be counted.  The items of a list are
written in order, each on a line of its own, and a separator ends every line but the last,
`SetsOut`.
-/

namespace Testbench.Layout

variable {items : List Item} {lines : List Text} {style : Style} {placement : Placement}
  {indent lead line mark name rest separator : Text} {depth distance longest : Nat}

/-! ### Names and marks -/

/-- The distance of a mark from the start of the name before it, where `longest` is the length of
the longest name. -/
def Placement.column (p : Placement) (longest : Nat) (name : Text) : Nat :=
  (if p.aligned then longest else name.length) + p.offset

/-- A line shows `lead`, a name, a mark and the text `rest` in this order, with nothing but spaces
before the mark, which stands at a distance from the start of the line. -/
def Marks (mark : Text) (distance : Nat) (lead name rest line : Text) : Prop :=
  ∃ gap, line = lead ++ name ++ Text.spaces gap ++ mark ++ rest ∧
    (lead ++ name ++ Text.spaces gap).length = distance

/-- No name in a list is longer than the longest one. -/
theorem length_name_le (items : List Item) :
  ∀ i ∈ items, i.name.length ≤ longestName items
  := by
  induction items with
  | nil => simp
  | cons first items ih =>
    intro i hi
    have step : longestName (first :: items) = max first.name.length (longestName items) := rfl
    rw [step]
    rcases List.mem_cons.1 hi with rfl | hi
    · apply Nat.le_max_left
    · exact Nat.le_trans (ih i hi) (Nat.le_max_right _ _)

/-- A list that is not empty has a longest name. -/
theorem exists_length_name_eq (ne : items ≠ []) :
  ∃ i ∈ items, i.name.length = longestName items
  := by
  induction items with
  | nil => contradiction
  | cons first items ih =>
    have step : longestName (first :: items) = max first.name.length (longestName items) := rfl
    rw [step]
    rcases Nat.le_total (longestName items) first.name.length with shorter | longer
    · use first, List.mem_cons_self
      rw [Nat.max_eq_left shorter]
    · rw [Nat.max_eq_right longer]
      cases items with
      | nil => exact ⟨first, List.mem_cons_self, Nat.le_antisymm longer (Nat.zero_le _)⟩
      | cons second items =>
        obtain ⟨i, hi, eq⟩ := ih (by simp)
        exact ⟨i, List.mem_cons_of_mem first hi, eq⟩

/-- The names of generics and ports take as many bytes as characters. -/
theorem byteCount_name (n : Vhdl.Identifier) :
  n.text.byteCount = n.text.length
  := Text.byteCount_eq_length fun c hc => Vhdl.toNat_lt_of_isWordChar (n.isWord.forall_mem c hc)

/-- A mark stands in its column behind a name that is not longer than the longest one. -/
theorem marks_padding (placement : Placement) (lead mark rest : Text) (h : name.length ≤ longest) :
  Marks mark (lead.length + placement.column longest name) lead name rest
    (lead ++ name ++ placement.padding longest name ++ mark ++ rest)
  := by
  refine ⟨_, rfl, ?_⟩
  rw [List.length_append, List.length_append, Text.length_spaces, Placement.column]
  split
  · omega
  · omega

/-! ### Lines -/

/-- A text consists of lines, each of them indented, and a separator ends every line but the
last. -/
inductive SetsOut (separator indent : Text) : List Text → Text → Prop
  | last (line : Text) : SetsOut separator indent [line] (indent ++ line ++ "\n")
  | next (line : Text) {lines : List Text} {t : Text} : SetsOut separator indent lines t →
      SetsOut separator indent (line :: lines) (indent ++ line ++ separator ++ "\n" ++ t)

/-- Indented lines with a separator between them are set out. -/
theorem setsOut_join (ne : lines ≠ []) :
  SetsOut separator indent lines
    (Text.join (separator ++ "\n") (lines.map (indent ++ ·)) ++ "\n")
  := by
  induction lines with
  | nil => contradiction
  | cons line lines ih =>
    cases lines with
    | nil => simpa [Text.join] using SetsOut.last line
    | cons second lines =>
      have further := SetsOut.next line (ih (by simp))
      simpa [Text.join, List.intercalate_cons_cons] using further

/-- What is enclosed in parentheses is set out between its first and its last line. -/
theorem exists_setsOut_enclosed (opening separator : Text) (lines : List Text) (style : Style)
    (depth : Nat) (ne : lines ≠ []) :
  ∃ body, SetsOut separator (style.indent (depth + 1)) lines body ∧
    enclosed opening separator lines style depth =
      style.indent depth ++ opening ++ " (\n" ++ body ++ style.indent depth ++ ")"
  := by
  refine ⟨_, setsOut_join ne, ?_⟩
  simp [enclosed]

/-! ### Parts -/

/-- In the parts that a list is written as, the marks stand in their columns and the items in their
order.  No name is longer than the longest one, in characters or in bytes.  Where the style aligns
colons, each of them stands at the distance of the longest name and the offset from the start of its
item, in declarations with the keyword and a space before it, and otherwise at the distance of its
own name and the offset; arrows are placed in the same way by the settings for associations.  In
clauses semicolons and in associations commas end every item but the last. -/
theorem columns_of_parts (items : List Item) (keyword : Text) (style : Style) (depth : Nat) :
  (∀ i ∈ items, i.name.length ≤ longestName items) ∧
  (∀ n : Vhdl.Identifier, n.text.byteCount = n.text.length) ∧
  (items ≠ [] → ∃ i ∈ items, i.name.length = longestName items) ∧
  (∃ lines, List.Forall₂ (fun i line =>
      Marks ":" (style.types.column (longestName items) i.name) [] i.name
        (" " ++ i.modePart ++ i.type ++ i.assignment) line) items lines ∧
    (items ≠ [] → ∃ body, SetsOut ";" (style.indent (depth + 1)) lines body ∧
      interfacePart items keyword style depth =
        style.indent depth ++ keyword ++ " (\n" ++ body ++ style.indent depth ++ ");")) ∧
  (∃ lines, List.Forall₂ (fun i line =>
      Marks ":" (keyword.length + 1 + style.types.column (longestName items) i.name)
        (keyword ++ " ") i.name (" " ++ i.type ++ i.assignment ++ ";") line) items lines ∧
    declarationPart items keyword style depth =
      lines.flatMap fun line => (style.indent depth ++ line ++ "\n" : Text)) ∧
  (∃ lines, List.Forall₂ (fun i line =>
      Marks "=>" (style.mappings.column (longestName items) i.name) [] i.name (" " ++ i.name) line)
        items lines ∧
    (items ≠ [] → ∃ body, SetsOut "," (style.indent (depth + 1)) lines body ∧
      associationPart items keyword style depth =
        style.indent depth ++ keyword ++ " map (\n" ++ body ++ style.indent depth ++ ")"))
  := by
  have bound := length_name_le items
  refine ⟨bound, byteCount_name, exists_length_name_eq, ?_, ?_, ?_⟩
  · use items.map (·.interfaceLine style (longestName items))
    constructor
    · rw [List.forall₂_map_right_iff, List.forall₂_same]
      intro i hi
      have marks := marks_padding style.types [] ":" (" " ++ i.modePart ++ i.type ++ i.assignment)
        (bound i hi)
      simpa [Item.interfaceLine] using marks
    · intro ne
      obtain ⟨body, setsOut, eq⟩ := exists_setsOut_enclosed keyword ";"
        (items.map (·.interfaceLine style (longestName items))) style depth (by simpa using ne)
      use body, setsOut
      rw [interfacePart, eq]
      simp
  · use items.map (·.declarationLine keyword style (longestName items))
    constructor
    · rw [List.forall₂_map_right_iff, List.forall₂_same]
      intro i hi
      have marks := marks_padding style.types (keyword ++ " ") ":"
        (" " ++ i.type ++ i.assignment ++ ";") (bound i hi)
      simpa [Item.declarationLine] using marks
    · rw [declarationPart, List.flatMap_map]
  · use items.map (·.associationLine style (longestName items))
    constructor
    · rw [List.forall₂_map_right_iff, List.forall₂_same]
      intro i hi
      have marks := marks_padding style.mappings [] "=>" (" " ++ i.name) (bound i hi)
      simpa [Item.associationLine] using marks
    · intro ne
      obtain ⟨body, setsOut, eq⟩ := exists_setsOut_enclosed (keyword ++ " map") ","
        (items.map (·.associationLine style (longestName items))) style depth (by simpa using ne)
      use body, setsOut
      rw [associationPart, eq]
      simp

/-- In a clause with a name of three and a name of four characters both colons stand at a distance
of five from the start of the item, with a semicolon behind the first one only. -/
theorem columns_of_parts_bus :
  ∃ lines body,
    List.Forall₂ (fun (i : Item) line =>
      Marks ":" 5 [] i.name (" " ++ i.modePart ++ i.type ++ i.assignment) line)
      [⟨"clk", some .input, "bit", none⟩, ⟨"data", some .output, "bit", some "'0'"⟩] lines ∧
    SetsOut ";" "  " lines body ∧
    interfacePart [⟨"clk", some .input, "bit", none⟩, ⟨"data", some .output, "bit", some "'0'"⟩]
      "port" .standard 0 = "port (\n" ++ body ++ ");"
  := by
  obtain ⟨-, -, -, ⟨lines, marks, parts⟩, -⟩ := columns_of_parts
    [⟨"clk", some .input, "bit", none⟩, ⟨"data", some .output, "bit", some "'0'"⟩]
    "port" .standard 0
  obtain ⟨body, setsOut, eq⟩ := parts (by decide)
  have outermost : Style.standard.indent 0 = [] := rfl
  rw [outermost, List.nil_append, List.append_nil] at eq
  exact ⟨lines, body, marks, setsOut, eq⟩

end Testbench.Layout
