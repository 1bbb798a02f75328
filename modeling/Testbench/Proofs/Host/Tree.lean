import Testbench.Host.Tree
import Testbench.Proofs.Command.Path
import Testbench.Proofs.Stage

/-!
# Reading in trees

The `destination` of a path is told by its parts alone; the tree decides only whether the
path can be followed to it, and where the links lead that begin there.  What is read at a path is
found behind these links.
-/

namespace Testbench.Tree

variable {t t' : Tree} {here place other : Location} {names : List Text} {p q name c : Text}
  {n : Node} {limit : Nat}

/-! ### Destinations -/

/-- Where names lead from a location. -/
def lead (place : Location) (names : List Text) : Location := names.foldl follow place

/-- Where a path leads if it can be followed. -/
def destination (here : Location) (path : Text) : Location :=
  lead (start here path) (Path.parts path)

@[simp]
theorem lead_nil (place : Location) :
  lead place [] = place
  := rfl

@[simp]
theorem lead_cons (place : Location) (name : Text) (names : List Text) :
  lead place (name :: names) = lead (follow place name) names
  := rfl

theorem lead_append (place : Location) (names more : List Text) :
  lead place (names ++ more) = lead (lead place names) more
  := List.foldl_append

/-- The name of a file leads down. -/
theorem follow_of_isFileName (h : Path.IsFileName name) :
  follow place name = place ++ [name]
  := by
  rw [follow, if_neg (by simp [h.ne_nil, h.ne_dot]), if_neg h.ne_dots]

/-- A piece that is no part leads nowhere else. -/
theorem follow_of_idle (idle : ¬(name != [] && name != ['.'])) :
  follow place name = place
  := by
  rw [follow, if_pos (by simpa [Decidable.or_iff_not_not_and_not] using idle)]

/-- Pieces that do not count lead nowhere else. -/
theorem lead_parts (place : Location) (p : Text) :
  lead place (Path.parts p) = lead place (Path.pieces p)
  := by
  rw [Path.parts]
  generalize Path.pieces p = names
  induction names generalizing place with
  | nil => rfl
  | cons name names ih =>
    rw [List.filter_cons]
    split
    · exact ih _
    · next idle => rw [ih, lead_cons, follow_of_idle idle]

/-- A file is below the directory to which the other parts of its path lead. -/
theorem destination_of_fileName? (h : Path.fileName? p = some name) :
  destination here p = lead (start here p) (Path.parts p).dropLast ++ [name]
  := by
  obtain ⟨⟨ts, parts⟩, isFileName⟩ := Path.fileName?_eq_some_iff.1 h
  rw [destination, parts, List.dropLast_concat, lead_append, lead_cons, lead_nil,
    follow_of_isFileName isFileName]

/-- Files with different names are at different locations. -/
theorem eq_of_destination_eq {name' : Text} (h : Path.fileName? p = some name)
    (h' : Path.fileName? q = some name') (eq : destination here p = destination here q) :
  name = name'
  := by
  rw [destination_of_fileName? h, destination_of_fileName? h'] at eq
  exact (List.append_singleton_inj.1 eq).2

/-! ### Following paths -/

/-- There are directories at a location and wherever names lead from it. -/
def Through (t : Tree) (place : Location) : List Text → Prop
  | [] => t.node? place = some .directory
  | name :: r => t.node? place = some .directory ∧ t.Through (follow place name) r

theorem Through.start (h : t.Through place names) :
  t.node? place = some .directory
  := by
  cases names with
  | nil => exact h
  | cons name names => exact h.1

theorem Through.finish (h : t.Through place names) :
  t.node? (lead place names) = some .directory
  := by
  induction names generalizing place with
  | nil => exact h
  | cons name names ih => exact ih h.2

theorem Through.dropLast (h : t.Through place names) :
  t.Through place names.dropLast
  := by
  induction names generalizing place with
  | nil => exact h
  | cons name names ih =>
    cases names with
    | nil => exact h.1
    | cons name' names => exact ⟨h.1, ih h.2⟩

/-- Names can be followed in every tree that has the directories. -/
theorem Through.mono (h : t.Through place names)
    (keeps : ∀ place, t.node? place = some .directory → t'.node? place = some .directory) :
  t'.Through place names
  := by
  induction names generalizing place with
  | nil => exact keeps place h
  | cons name names ih => exact ⟨keeps place h.1, ih h.2⟩

/-- Pieces that do not count do not matter to whether a path can be followed. -/
theorem through_parts :
  t.Through place (Path.parts p) ↔ t.Through place (Path.pieces p)
  := by
  rw [Path.parts]
  generalize Path.pieces p = names
  induction names generalizing place with
  | nil => rfl
  | cons name names ih =>
    rw [List.filter_cons]
    split
    · exact and_congr_right fun _ => ih
    · next idle =>
      rw [ih, Through, follow_of_idle idle]
      exact ⟨fun h => ⟨h.start, h⟩, fun h => h.2⟩

/-- Names lead to a location if there are directories before the last of them. -/
theorem walk_concat {place' : Location} :
  t.walk place (names ++ [name]) = .ok place' ↔
    t.Through place names ∧ place' = follow (lead place names) name
  := by
  induction names generalizing place with
  | nil =>
    rw [List.nil_append, walk]
    split
    · next directory => simp [walk, Through, directory, eq_comm]
    · next file => simp [Through, file]
    · next link => simp [Through, link]
    · next none => simp [Through, none]
  | cons name' names ih =>
    rw [List.cons_append, walk]
    split
    · next directory => simp [ih, Through, directory]
    · next file => simp [Through, file]
    · next link => simp [Through, link]
    · next none => simp [Through, none]

/-- A path can be followed in a tree up to its last piece. -/
def Reaches (t : Tree) (here : Location) (p : Text) : Prop :=
  p ≠ [] ∧ t.Through (start here p) (Path.pieces p).dropLast

theorem locate_eq_ok_iff :
  t.locate here p = .ok place ↔ t.Reaches here p ∧ place = destination here p
  := by
  obtain ⟨names, name, split⟩ : ∃ names name, Path.pieces p = names ++ [name] :=
    (List.eq_nil_or_concat' _).resolve_left (Path.pieces_ne_nil p)
  have ends : destination here p = follow (lead (start here p) names) name := by
    rw [destination, lead_parts, split, lead_append]
    rfl
  rw [locate, Reaches, ends, split, List.dropLast_concat]
  split
  · next empty => simp [empty]
  · next ne =>
    rw [walk_concat]
    simp [ne]

/-! ### Following links -/

/-- One location leads to another one through links, of which there can be none. -/
inductive Leads (t : Tree) : Location → Location → Prop
  | here (place : Location) : Leads t place place
  | link {place next other : Location} {target : Text}
      (found : t.node? place = some (.link target))
      (step : t.locate place.dropLast target = .ok next) (rest : Leads t next other) :
      Leads t place other

/-- There is no link at a location. -/
def IsPlain (t : Tree) (place : Location) : Prop := ∀ target, t.node? place ≠ some (.link target)

/-- A path ends in a link that leads to where another path leads. -/
def IsLinkTo (t : Tree) (here : Location) (p q : Text) : Prop :=
  (∃ target, t.node? (destination here p) = some (.link target)) ∧
    t.Leads (destination here p) (destination here q)

/-- A location without a link leads to itself alone. -/
theorem IsPlain.eq_of_leads (plain : t.IsPlain place) (h : t.Leads place other) :
  place = other
  := by
  cases h with
  | here => rfl
  | link found => exact absurd found (plain _)

/-- A location that leads to another one has a link. -/
theorem exists_link_of_leads (h : t.Leads place other) (ne : place ≠ other) :
  ∃ target, t.node? place = some (.link target)
  := by
  cases h with
  | here => exact absurd rfl ne
  | link found => exact ⟨_, found⟩

theorem isPlain_of_directory (found : t.node? place = some .directory) :
  t.IsPlain place
  := by
  simp [IsPlain, found]

theorem isPlain_of_file {contents : Option Text} (found : t.node? place = some (.file contents)) :
  t.IsPlain place
  := by
  simp [IsPlain, found]

/-- A node that is no link is found behind the links that begin at a location, if there are not
too many of them. -/
inductive Settles (t : Tree) : Nat → Location → Location → Node → Prop
  | here {limit : Nat} {place : Location} {n : Node} (plain : t.IsPlain place)
      (found : t.node? place = some n) : Settles t limit place place n
  | link {limit : Nat} {place next other : Location} {n : Node} {target : Text}
      (found : t.node? place = some (.link target))
      (step : t.locate place.dropLast target = .ok next) (rest : Settles t limit next other n) :
      Settles t (limit + 1) place other n

/-- What is found at a location if links are followed. -/
theorem settle_eq_ok_iff :
  t.settle limit place = .ok (other, n) ↔ t.Settles limit place other n
  := by
  constructor
  · intro h
    fun_induction settle t limit place
    case case1 => cases h
    case case2 => cases h
    case case3 place target found limit ih =>
      obtain ⟨next, step, rest⟩ := bind_eq_ok.1 h
      exact Settles.link found step (ih next rest)
    case case4 limit place m noLink found =>
      obtain ⟨rfl, rfl⟩ : place = other ∧ m = n := by simpa using h
      apply Settles.here _ found
      intro target link
      exact noLink target (Option.some.inj (found.symm.trans link))
  · intro h
    induction h with
    | @here limit place n plain found =>
      cases n with
      | directory => simp [settle, found]
      | file contents => simp [settle, found]
      | link target => exact absurd found (plain target)
    | link found step rest ih =>
      rw [settle.eq_def, found]
      simp only [step]
      exact ih

/-- What a path leads to is found behind the links that begin at its destination. -/
theorem find_eq_ok_iff :
  t.find here p = .ok (place, n) ↔
    t.Reaches here p ∧ t.Settles linkLimit (destination here p) place n
  := by
  rw [find, bind_eq_ok, ← settle_eq_ok_iff]
  simp only [locate_eq_ok_iff, and_assoc, exists_and_left, exists_eq_left]

/-- The text of a file is read exactly if its path leads to it. -/
theorem text_eq_ok_iff :
  t.text here p = .ok c ↔
    t.Reaches here p ∧
      ∃ place, t.Settles linkLimit (destination here p) place (.file (some c))
  := by
  rw [text, bind_eq_ok]
  simp only [Prod.exists, find_eq_ok_iff]
  constructor
  · rintro ⟨place, n, ⟨reaches, found⟩, read⟩
    refine ⟨reaches, place, ?_⟩
    cases n with
    | directory => simp at read
    | link target => simp at read
    | file contents =>
      cases contents with
      | none => simp at read
      | some contents =>
        obtain rfl : contents = c := by simpa [pure, Except.pure] using read
        exact found
  · rintro ⟨reaches, place, found⟩
    exact ⟨place, _, ⟨reaches, found⟩, rfl⟩

/-- A text is read where it is. -/
theorem text_of_file (reaches : t.Reaches here p)
    (found : t.node? (destination here p) = some (.file (some c))) :
  t.text here p = .ok c
  := text_eq_ok_iff.2 ⟨reaches, _, Settles.here (isPlain_of_file found) found⟩

/-- A text that is read without following a link is at the destination of its path. -/
theorem file_of_text (plain : t.IsPlain (destination here p)) (read : t.text here p = .ok c) :
  t.node? (destination here p) = some (.file (some c))
  := by
  obtain ⟨-, place, settles⟩ := text_eq_ok_iff.1 read
  cases settles with
  | here plain found => exact found
  | link found => exact absurd found (plain _)

/-- A directory to which a path leads has a path from the root. -/
theorem path_of_through (h : t.Through (start here p) (Path.parts p)) (ne : p ≠ []) :
  t.path here p = .ok (absolutePath (destination here p))
  := by
  have reaches : t.Reaches here p := ⟨ne, (through_parts.1 h).dropLast⟩
  have found := find_eq_ok_iff.2
    ⟨reaches, Settles.here (isPlain_of_directory h.finish) h.finish⟩
  rw [path, found]
  rfl

/-! ### Paths seen from a directory -/

theorem start_join (here : Location) (relative : ¬Path.isAbsolute q) :
  start here (Path.join p q) = start here p
  := by
  rw [start, start, Path.isAbsolute_join relative]

theorem destination_join (here : Location) (relative : ¬Path.isAbsolute q) :
  destination here (Path.join p q) = lead (destination here p) (Path.parts q)
  := by
  rw [destination, start_join here relative, Path.parts_join relative, lead_append]
  rfl

/-- A name in a directory leads to the location below that of the directory. -/
theorem destination_join_of_isFileName (here : Location) (h : Path.IsFileName name) :
  destination here (Path.join p name) = destination here p ++ [name]
  := by
  rw [destination_join here h.not_isAbsolute, h.parts, lead_cons, lead_nil, follow_of_isFileName h]

/-- A directory that can be followed leads to whatever is in it. -/
theorem reaches_join (h : t.Through (start here p) (Path.parts p)) (ne : p ≠ [])
    (hn : Path.IsPart name) :
  t.Reaches here (Path.join p name)
  := by
  have relative := hn.not_isAbsolute
  have pieces : Path.pieces name = [name] := Path.pieces_of_not_mem hn.not_mem
  rw [Reaches, start_join here relative]
  rcases Path.join_cases (p := p) relative with ⟨empty, -⟩ | ⟨r, rfl, eq⟩ | ⟨-, eq⟩
  · contradiction
  · rw [eq, Path.pieces_append_cons, pieces, List.dropLast_concat]
    refine ⟨by simp, ?_⟩
    rw [Path.parts_append_cons] at h
    apply through_parts.1
    simpa [Path.parts, Path.pieces] using h
  · rw [eq, Path.pieces_append_cons, pieces, List.dropLast_concat]
    exact ⟨by simp, through_parts.1 h⟩

end Testbench.Tree
