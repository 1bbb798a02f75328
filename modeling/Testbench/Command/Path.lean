import Testbench.Text.Case

/-!
# Paths

A path is a text whose parts are separated by slashes.  Empty parts and parts that are a
single dot lead nowhere else and do not count.  `SourceKind.ofPath?` tells from the
extension of a path what the file at the path describes an entity in.
-/

namespace Testbench

namespace Path

/-- The pieces of a path between its slashes. -/
def pieces : Text → List Text
  | [] => [[]]
  | c :: r =>
      if c = '/' then [] :: pieces r
      else
        match pieces r with
        | [] => [[c]]
        | p :: more => (c :: p) :: more

/-- The parts of a path that lead somewhere. -/
def parts (p : Text) : List Text := (pieces p).filter fun t => t != [] && t != ['.']

/-- Whether a path begins at the root. -/
def isAbsolute (p : Text) : Bool := p.head? == some '/'

/-- The path of `q` as seen from the directory `p`. -/
def join (p q : Text) : Text :=
  if isAbsolute q then q
  else if p = [] ∨ p.getLast? = some '/' then p ++ q
  else p ++ "/" ++ q

/-- The name of the file at a path. -/
def fileName? (p : Text) : Option Text := (parts p).getLast?.filter (· != ['.', '.'])

/-- The part of the name of a file behind its last dot, unless only this dot stands in
front of it. -/
def extension? (p : Text) : Option Text := do
  let reversed := (← fileName? p).reverse
  match reversed.dropWhile (· != '.') with
  | '.' :: _ :: _ => some (reversed.takeWhile (· != '.')).reverse
  | _ => none

/-- The directory that holds the file at a path; a lone name is held by the current
directory. -/
def directory (p : Text) : Text :=
  let inner := Text.join "/" (parts p).dropLast
  if isAbsolute p then '/' :: inner else if inner = [] then "." else inner

end Path

/-- What a file describes an entity in: VHDL source, or an interchange record. -/
inductive SourceKind where
  | vhdl
  | record
  deriving DecidableEq

/-- The kind of the file at a path, told by its extension in any case. -/
def SourceKind.ofPath? (p : Text) : Option SourceKind := do
  let extension := (← Path.extension? p).lower
  if extension = "vhd" ∨ extension = "vhdl" then some .vhdl
  else if extension = "json" then some .record
  else none

end Testbench
