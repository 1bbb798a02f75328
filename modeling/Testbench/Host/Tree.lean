import Testbench.Command.Path
import Testbench.Host.Look

/-!
# Trees of files

A `Tree` gives a node, which is a directory, a file or a symbolic link, to locations.
`locate` follows a path from a directory, `text`, `names` and `path` tell what is at a path,
and `write` makes a file at a path and every directory that leads to it.

A link that is at the end of a path is followed when the file is read.  A file that is written
takes the place of a link, and whatever the link leads to stays.  Links are there for files:
on the way of a path only directories are passed, and a link to a directory is refused there
like a file.  Hence every directory is at one location, and `.` and `..` are all that makes
paths to it differ.
-/

namespace Testbench

/-- Where something is: the names that lead to it from the root. -/
abbrev Location := List Text

/-- What can be at a location: a directory, a file, whose data need not be a text, or a link,
which holds a path that is seen from the directory of the link. -/
inductive Node where
  | directory
  | file (contents : Option Text)
  | link (target : Text)
  deriving DecidableEq

/-- The nodes at the locations below the root. -/
structure Tree where
  entries : List (Location × Node)
  deriving DecidableEq

namespace Tree

/-- What is at a location; the root is a directory. -/
def node? (t : Tree) (place : Location) : Option Node :=
  if place = [] then some .directory else t.entries.lookup place

/-- The entries with a node at a location. -/
def enter (place : Location) (n : Node) : List (Location × Node) → List (Location × Node)
  | [] => [(place, n)]
  | (l, m) :: r => if l = place then (l, n) :: r else (l, m) :: enter place n r

/-- The tree with a node at a location. -/
def put (t : Tree) (place : Location) (n : Node) : Tree := ⟨enter place n t.entries⟩

/-- What has been entered at a location is found there, and what was found at any other
location is found there still. -/
theorem lookup_enter (place other : Location) (n : Node) (entries : List (Location × Node)) :
  (enter place n entries).lookup other = if other = place then some n else entries.lookup other
  := by
  induction entries with
  | nil =>
    by_cases h : other = place
    · simp [enter, h]
    · simp [enter, h, List.lookup_cons, beq_eq_false_iff_ne.2 h]
  | cons e r ih =>
    obtain ⟨l, k⟩ := e
    rw [enter]
    split
    · next hl =>
      subst hl
      by_cases h : other = l
      · simp [h]
      · simp [h, List.lookup_cons, beq_eq_false_iff_ne.2 h]
    · next hl =>
      rw [List.lookup_cons, List.lookup_cons, ih]
      split
      · next h =>
        have h : other = l := eq_of_beq h
        rw [if_neg fun e => hl (h.symm.trans e)]
      · rfl

/-- Below the root there is what has been put. -/
theorem node?_put_self (t : Tree) {place : Location} (h : place ≠ []) (n : Node) :
  (t.put place n).node? place = some n
  := by
  rw [node?, if_neg h, put, lookup_enter, if_pos rfl]

/-- Everywhere else there is what was there before. -/
theorem node?_put_of_ne (t : Tree) {place other : Location} (h : other ≠ place) (n : Node) :
  (t.put place n).node? other = t.node? other
  := by
  rw [node?, node?, put, lookup_enter, if_neg h]

/-! ### Paths -/

/-- Where a name leads from a location. -/
def follow (place : Location) (name : Text) : Location :=
  if name = [] ∨ name = ['.'] then place else if name = ['.', '.'] then place.dropLast
  else place ++ [name]

/-- Where names lead from a location, if there is a directory at each of the locations
between. -/
def walk (t : Tree) (place : Location) : List Text → Except Fault Location
  | [] => .ok place
  | name :: r =>
    match t.node? place with
    | some .directory => t.walk (follow place name) r
    | some (.file _) => .error .notDirectory
    | some (.link _) => .error .notDirectory
    | none => .error .notFound

/-- The location from which a path sets out. -/
def start (here : Location) (path : Text) : Location := if Path.isAbsolute path then [] else here

/-- Where a path leads. -/
def locate (t : Tree) (here : Location) (path : Text) : Except Fault Location :=
  if path = [] then .error .notFound else t.walk (start here path) (Path.pieces path)

/-- The path from the root to a location. -/
def absolutePath (place : Location) : Text := '/' :: Text.join "/" place

/-- How many links are followed one after the other. -/
def linkLimit : Nat := 40

/-- What is found at a location if at most so many links are followed, and where it is. -/
def settle (t : Tree) (limit : Nat) (place : Location) : Except Fault (Location × Node) :=
  match t.node? place with
  | none => .error .notFound
  | some (.link target) =>
    match limit with
    | 0 => .error .tooManyLinks
    | limit + 1 => do t.settle limit (← t.locate place.dropLast target)
  | some n => .ok (place, n)

/-- What a path leads to, and where. -/
def find (t : Tree) (here : Location) (path : Text) : Except Fault (Location × Node) := do
  t.settle linkLimit (← t.locate here path)

/-! ### Contents -/

/-- The text of the file at a path. -/
def text (t : Tree) (here : Location) (path : Text) : Except Fault Text := do
  match ← t.find here path with
  | (_, .file (some contents)) => return contents
  | (_, .file none) => throw .notText
  | (_, _) => throw .isDirectory

/-- The names in the directory at a path. -/
def names (t : Tree) (here : Location) (path : Text) : Except Fault (List Text) := do
  match ← t.find here path with
  | (place, .directory) =>
      return (t.entries.filter fun (l, _) => l.dropLast = place).filterMap fun (l, _) =>
        l.getLast?
  | (_, _) => throw .notDirectory

/-- The path from the root to what is at a path. -/
def path (t : Tree) (here : Location) (p : Text) : Except Fault Text := do
  return absolutePath (← t.find here p).1

/-! ### Writing -/

/-- The tree with a directory at a location. -/
def makeDirectory (t : Tree) (place : Location) : Except Fault Tree :=
  match t.node? place with
  | some .directory => .ok t
  | some _ => .error .alreadyThere
  | none => .ok (t.put place .directory)

/-- The tree with directories wherever names lead from a location, and where they lead in
the end. -/
def makeDirectories (t : Tree) (place : Location) : List Text → Except Fault (Tree × Location)
  | [] => .ok (t, place)
  | name :: r => do
      let t ← t.makeDirectory (follow place name)
      t.makeDirectories (follow place name) r

/-- The tree with a file at a path, which has to end with the name of the file: behind a
slash only a directory can stand. -/
def write (t : Tree) (here : Location) (path contents : Text) : Except Fault Tree := do
  let directory := Path.directory path
  let (t, place) ← t.makeDirectories (start here directory) (Path.pieces directory)
  match Path.fileName? path with
  | none => throw .isDirectory
  | some name =>
    if (Path.pieces path).getLast? = some name then
      match t.node? (place ++ [name]) with
      | some .directory => throw .isDirectory
      | _ => return t.put (place ++ [name]) (.file (some contents))
    else throw .notDirectory

/-- The tree with a link at a path at which there is nothing yet. -/
def link (t : Tree) (here : Location) (path target : Text) : Except Fault Tree := do
  let place ← t.locate here path
  match t.node? place with
  | none => return t.put place (.link target)
  | some _ => throw .alreadyThere

end Tree

end Testbench
