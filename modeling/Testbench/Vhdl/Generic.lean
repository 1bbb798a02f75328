import Testbench.Vhdl.Error

/-!
# Generics

A generic of an entity has a name, a type and possibly a default; type and default are
kept as they are written.
-/

namespace Testbench.Vhdl

/-- A generic of an entity. -/
structure Generic where
  name : Identifier
  type : Text
  default : Option Text
  deriving DecidableEq

namespace Generic

/-- The type and the default in the part of a declaration behind its colon. -/
def splitType (t : Text) : Except Declaration.Fault (Text × Option Text) := do
  let (type, default) ← Declaration.splitDefault t
  if type = [] then .error .missingType else .ok (type, default)

/-- The generics of one declaration, or what is wrong with it. -/
def ofDeclaration (declaration : Text) : Except Declaration.Fault (List Generic) := do
  let (before, rest) ← Declaration.splitNames declaration
  let (type, default) ← splitType rest
  let names ← Declaration.names "constant" before
  return names.map fun n => ⟨n, type, default⟩

/-- The generics of one declaration. -/
def ofDeclaration? (declaration : Text) : Except Error (List Generic) :=
  (ofDeclaration declaration).mapError (.malformedGeneric declaration)

/-- The generics that the body of an entity declares, in order. -/
def ofBody (body : Text) : Except Error (List Generic) := do
  match ← (Declaration.clause? "generic" body).mapError (.malformedGeneric "generic") with
  | none => return []
  | some inside => return (← (Declaration.list inside).mapM ofDeclaration?).flatten

end Generic

end Testbench.Vhdl
