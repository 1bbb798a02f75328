import Testbench.Command.Path
import Mathlib.Tactic.Common

/-!
# Parts of paths

Where a path leads is told by its parts and by whether it begins at the root.  The parts of a
path that is seen from a directory are those of the directory and its own, and the directory
that holds a file has all of its parts but the last one.
-/

namespace Testbench.Path

variable {p q t name : Text} {ts : List Text}

/-! ### Pieces -/

/-- The pieces of a path stand between its slashes. -/
theorem pieces_eq_splitOn (p : Text) :
  pieces p = p.splitOn '/'
  := by
  induction p with
  | nil => rfl
  | cons c r ih =>
    obtain ⟨l, ls, h⟩ := List.exists_cons_of_ne_nil (List.splitOn_ne_nil '/' r)
    rw [pieces, List.splitOn_cons_eq_if_modifyHead, ih, h]
    by_cases slash : c = '/'
    · simp [slash]
    · simp [slash]

theorem pieces_ne_nil (p : Text) :
  pieces p ≠ []
  := by
  rw [pieces_eq_splitOn]
  apply List.splitOn_ne_nil

/-- There is no slash in a piece. -/
theorem not_mem_of_mem_pieces (h : t ∈ pieces p) :
  '/' ∉ t
  := by
  induction p generalizing t with
  | nil =>
    obtain rfl : t = [] := by simpa [pieces] using h
    simp
  | cons c r ih =>
    obtain ⟨l, ls, split⟩ := List.exists_cons_of_ne_nil (pieces_ne_nil r)
    rw [pieces, split] at h
    rw [split] at ih
    split at h
    · rcases List.mem_cons.1 h with rfl | h
      · simp
      · exact ih h
    · next other =>
      rcases List.mem_cons.1 h with rfl | h
      · rw [List.mem_cons, not_or]
        exact ⟨Ne.symm other, ih List.mem_cons_self⟩
      · exact ih (List.mem_cons_of_mem l h)

/-- Behind a slash further pieces follow. -/
theorem pieces_append_cons (p q : Text) :
  pieces (p ++ '/' :: q) = pieces p ++ pieces q
  := by
  simp only [pieces_eq_splitOn]
  apply List.splitOn_append_cons_self

/-- A path without a slash is its only piece. -/
theorem pieces_of_not_mem (h : '/' ∉ p) :
  pieces p = [p]
  := by
  rw [pieces_eq_splitOn, List.splitOn_eq_singleton h]

/-! ### Parts -/

/-- What a part of a path can be. -/
structure IsPart (t : Text) : Prop where
  ne_nil : t ≠ []
  ne_dot : t ≠ ['.']
  not_mem : '/' ∉ t

theorem isPart_of_mem_parts (h : t ∈ parts p) :
  IsPart t
  := by
  obtain ⟨piece, counts⟩ := List.mem_filter.1 h
  simp only [Bool.and_eq_true, bne_iff_ne] at counts
  exact ⟨counts.1, counts.2, not_mem_of_mem_pieces piece⟩

/-- Texts that can be parts all count. -/
theorem filter_parts (h : ∀ t ∈ ts, IsPart t) :
  (ts.filter fun t => t != [] && t != ['.']) = ts
  := by
  rw [List.filter_eq_self]
  intro t ht
  simp [(h t ht).ne_nil, (h t ht).ne_dot]

/-- Behind a slash further parts follow. -/
theorem parts_append_cons (p q : Text) :
  parts (p ++ '/' :: q) = parts p ++ parts q
  := by
  rw [parts, pieces_append_cons, List.filter_append]
  rfl

/-- The parts of a path that is made of parts. -/
theorem parts_intercalate (h : ∀ t ∈ ts, IsPart t) :
  parts (Text.join "/" ts) = ts
  := by
  by_cases empty : ts = []
  · subst empty
    rfl
  · have split : pieces (Text.join "/" ts) = ts := by
      rw [pieces_eq_splitOn]
      exact List.splitOn_intercalate '/' (fun t ht => (h t ht).not_mem) empty
    rw [parts, split, filter_parts h]

/-- A part is its only part. -/
theorem IsPart.parts (h : IsPart name) :
  parts name = [name]
  := by
  rw [Path.parts, pieces_of_not_mem h.not_mem, filter_parts]
  simpa using h

/-! ### Directories -/

/-- The directory of a path has all of its parts but the last one. -/
theorem parts_directory (p : Text) :
  parts (directory p) = (parts p).dropLast
  := by
  have inner : parts (Text.join "/" (parts p).dropLast) = (parts p).dropLast :=
    parts_intercalate fun t ht => isPart_of_mem_parts (List.dropLast_subset _ ht)
  rw [directory]
  split
  · exact (parts_append_cons [] _).trans inner
  · split
    · next none =>
      rw [none] at inner
      exact inner
    · exact inner

/-- The directory of a path begins at the root if the path does. -/
theorem isAbsolute_directory (p : Text) :
  isAbsolute (directory p) = isAbsolute p
  := by
  rw [directory]
  split
  · next absolute => rw [absolute, isAbsolute, List.head?_cons, beq_self_eq_true]
  · next relative =>
    rw [Bool.not_eq_true] at relative
    rw [relative]
    split
    · rfl
    · cases h : (parts p).dropLast with
      | nil => rfl
      | cons t ts =>
        have part := isPart_of_mem_parts ((List.dropLast_subset _) (h ▸ List.mem_cons_self))
        obtain ⟨c, t, rfl⟩ := List.exists_cons_of_ne_nil part.ne_nil
        have other : c ≠ '/' := by
          rintro rfl
          exact part.not_mem List.mem_cons_self
        cases ts <;> simp [Text.join, isAbsolute, other]

/-! ### Paths seen from a directory -/

/-- A path that is seen from a directory is the directory with the path behind a slash, unless
the directory is empty or ends with one. -/
theorem join_cases (relative : ¬isAbsolute q) :
  (p = [] ∧ join p q = q) ∨ (∃ r, p = r ++ ['/'] ∧ join p q = r ++ '/' :: q) ∨
    (p ≠ [] ∧ join p q = p ++ '/' :: q)
  := by
  rw [join, if_neg relative]
  by_cases empty : p = []
  · left
    simp [empty]
  · by_cases slash : p.getLast? = some '/'
    · obtain ⟨r, rfl⟩ := List.getLast?_eq_some_iff.1 slash
      right
      left
      use r, rfl
      simp
    · right
      right
      use empty
      simp [empty, slash]

/-- The parts of a path that is seen from a directory follow those of the directory. -/
theorem parts_join (relative : ¬isAbsolute q) :
  parts (join p q) = parts p ++ parts q
  := by
  rcases join_cases (p := p) relative with ⟨rfl, eq⟩ | ⟨r, rfl, eq⟩ | ⟨-, eq⟩
  · rw [eq]
    rfl
  · rw [eq, parts_append_cons, parts_append_cons r []]
    simp [parts, pieces]
  · rw [eq, parts_append_cons]

/-- A path that is seen from a directory begins at the root if the directory does. -/
theorem isAbsolute_join (relative : ¬isAbsolute q) :
  isAbsolute (join p q) = isAbsolute p
  := by
  rcases join_cases (p := p) relative with ⟨rfl, eq⟩ | ⟨r, rfl, eq⟩ | ⟨ne, eq⟩
  · rw [eq]
    simpa [isAbsolute] using relative
  · rw [eq]
    cases r <;> rfl
  · obtain ⟨c, r, rfl⟩ := List.exists_cons_of_ne_nil ne
    rw [eq]
    rfl

/-- A part does not begin at the root. -/
theorem IsPart.not_isAbsolute (h : IsPart name) :
  ¬isAbsolute name
  := by
  rw [isAbsolute, beq_iff_eq]
  intro slash
  exact h.not_mem (List.mem_of_mem_head? slash)

/-! ### Files -/

/-- What the name of a file can be: a part that does not lead to the directory above. -/
structure IsFileName (t : Text) : Prop extends IsPart t where
  ne_dots : t ≠ ['.', '.']

/-- A longer text without a slash can be the name of a file. -/
theorem isFileName_of_length (h : 2 < t.length) (plain : '/' ∉ t) :
  IsFileName t
  := by
  refine ⟨⟨?_, ?_, plain⟩, ?_⟩
  all_goals
    rintro rfl
    simp at h

/-- A file has the last part of its path as its name. -/
theorem fileName?_eq_some_iff :
  fileName? p = some name ↔ (∃ ts, parts p = ts ++ [name]) ∧ IsFileName name
  := by
  rw [fileName?, Option.filter_eq_some_iff, List.getLast?_eq_some_iff, bne_iff_ne]
  constructor
  · rintro ⟨⟨ts, last⟩, ne⟩
    have part : IsPart name := isPart_of_mem_parts (p := p) (by simp [last])
    exact ⟨⟨ts, last⟩, part, ne⟩
  · rintro ⟨last, h⟩
    exact ⟨last, h.ne_dots⟩

/-- The name of a file is the name of the file at it. -/
theorem IsFileName.fileName? (h : IsFileName name) :
  fileName? name = some name
  := fileName?_eq_some_iff.2 ⟨⟨[], h.parts⟩, h⟩

/-- A file has its name in whatever directory it is seen from. -/
theorem IsFileName.fileName?_join (h : IsFileName name) (p : Text) :
  Path.fileName? (join p name) = some name
  := by
  rw [fileName?_eq_some_iff, parts_join h.not_isAbsolute, h.parts]
  exact ⟨⟨_, rfl⟩, h⟩

/-- The extension of a file is told by its name. -/
theorem extension?_eq_of_fileName? (h : fileName? p = some name) :
  extension? p = extension? name
  := by
  rw [extension?, extension?, h, (fileName?_eq_some_iff.1 h).2.fileName?]

/-- A name that ends in a dot and a text without dots has the text as its extension. -/
theorem IsFileName.extension? {stem extension : Text} (h : IsFileName (stem ++ '.' :: extension))
    (ne : stem ≠ []) (plain : '.' ∉ extension) :
  extension? (stem ++ '.' :: extension) = some extension
  := by
  have front : ∀ c ∈ extension.reverse, (c != '.') = true := by
    intro c hc
    rw [bne_iff_ne]
    rintro rfl
    exact plain (List.mem_reverse.1 hc)
  obtain ⟨c, r, last⟩ := List.exists_cons_of_ne_nil (List.reverse_ne_nil_iff.2 ne)
  rw [Path.extension?, h.fileName?]
  simp [List.dropWhile_append_of_pos front, List.takeWhile_append_of_pos front, last]

end Testbench.Path
