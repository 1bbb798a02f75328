import Testbench.Text.Basic
import Mathlib.Tactic.Common

/-!
# Lines

The lines of a text stand between its line feeds; a line feed at the end of the text ends the
last line.  `withEnds` puts other lines in the place of the first and of the last line.
-/

namespace Testbench

namespace Text

variable {a m z first last : Text}

/-- The lines of a text. -/
def lines (t : Text) : List Text :=
  if t.getLast? = some '\n' then (t.splitOn '\n').dropLast else t.splitOn '\n'

/-- The text that has the given lines, each of them with a line feed at its end. -/
def ofLines (ls : List Text) : Text := ls.flatMap (· ++ ['\n'])

/-- The text with other lines in the place of its first and its last line. -/
def withEnds (t first last : Text) : Text :=
  ofLines (first :: (t.lines.tail.dropLast ++ [last]))

/-- What stands between the line feeds of a text makes up the text. -/
theorem ofLines_splitOn (t : Text) :
  ofLines (t.splitOn '\n') = t ++ ['\n']
  := by
  induction t with
  | nil => rfl
  | cons c t ih =>
    rw [List.splitOn_cons_eq_if_modifyHead]
    split
    · next feed =>
      obtain rfl : c = '\n' := by simpa using feed
      rw [ofLines, List.flatMap_cons, ← ofLines, ih]
      rfl
    · obtain ⟨l, ls, h⟩ := List.exists_cons_of_ne_nil (List.splitOn_ne_nil '\n' t)
      rw [h] at ih ⊢
      rw [List.modifyHead_cons, ofLines, List.flatMap_cons, ← ofLines]
      rw [ofLines, List.flatMap_cons, ← ofLines] at ih
      rw [List.cons_append, List.cons_append, ih]
      rfl

/-- The first line and the last line of a text are replaced, and what stands between them is
kept. -/
theorem withEnds_append (ha : '\n' ∉ a) (hz : '\n' ∉ z) (hm : m = [] ∨ ∃ m', m = m' ++ ['\n']) :
  withEnds (a ++ '\n' :: (m ++ (z ++ ['\n']))) first last =
    first ++ '\n' :: (m ++ (last ++ ['\n']))
  := by
  have ends : (a ++ '\n' :: (m ++ (z ++ ['\n']))).getLast? = some '\n' := by
    rw [← List.cons_append, ← List.append_assoc, ← List.append_assoc, List.getLast?_concat]
  have closing : (z ++ ['\n']).splitOn '\n' = [z, []] := by
    rw [List.splitOn_append_cons_self_of_not_mem hz, List.splitOn_nil]
  rw [withEnds, lines, if_pos ends, List.splitOn_append_cons_self_of_not_mem ha]
  rcases hm with rfl | ⟨m', rfl⟩
  · rw [List.nil_append, closing]
    simp [ofLines]
  · have split : (m' ++ ['\n'] ++ (z ++ ['\n'])).splitOn '\n' = m'.splitOn '\n' ++ [z, []] := by
      rw [← closing, ← List.splitOn_append_cons_self, List.append_assoc]
      rfl
    have middle : (a :: (m'.splitOn '\n' ++ [z, []])).dropLast.tail.dropLast = m'.splitOn '\n' := by
      simp [List.dropLast_cons_of_ne_nil, List.dropLast_append_of_ne_nil]
    rw [split, middle, ofLines, List.flatMap_cons, List.flatMap_append, ← ofLines, ← ofLines,
      ofLines_splitOn]
    simp [ofLines]

end Text

end Testbench
