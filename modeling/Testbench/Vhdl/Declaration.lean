import Testbench.Text.Quoted
import Testbench.Vhdl.Identifier
import Testbench.Vhdl.Nesting

/-!
# Interface declarations

Generics and ports are declared in clauses, `generic ( ... )` and `port ( ... )`, whose
declarations are separated by semicolons.  A declaration has the form
`names : subtype := default`, where the default may be missing and the names may follow
the word that tells the class of the objects.  This module takes clauses and declarations
apart; `Declaration.Fault` says what can be wrong with one.
-/

namespace Testbench.Vhdl

namespace Declaration

/-- What is wrong with a declaration, or with the clause that holds it. -/
inductive Fault where
  | missingOpen
  | missingClose
  | missingColon
  | missingDefault
  | missingType
  | badName (name : Text) (fault : Identifier.Fault)
  | repeatedName
  | unknownMode (mode : Text)
  | trailingText (t : Text)
  deriving DecidableEq

/-- The wording of a fault. -/
def Fault.message : Fault → Text
  | .missingOpen => "expected '(' after keyword"
  | .missingClose => "missing closing ')'"
  | .missingColon => "missing ':'"
  | .missingDefault => "missing default value after ':='"
  | .missingType => "missing type"
  | .badName n f => "invalid name " ++ n.quoted ++ ": " ++ f.message
  | .repeatedName => "name is declared more than once"
  | .unknownMode m => "unsupported port mode " ++ m.quoted
  | .trailingText t => "unexpected text " ++ t.quoted

/-- The inside of the first clause with a keyword in the body of an entity, if there is
one. -/
def clause? (keyword body : Text) : Except Fault (Option Text) :=
  match splitWord? keyword body with
  | none => .ok none
  | some (_, rest) =>
    match rest.trimStart with
    | '(' :: inside =>
      match splitClosing? inside with
      | some (inside, _) => .ok (some inside.trim)
      | none => .error .missingClose
    | _ => .error .missingOpen

/-- The declarations in the inside of a clause, without the empty ones. -/
def list (inside : Text) : List Text := (split ';' inside).filter (· ≠ [])

/-- The parts of a declaration before and behind its colon. -/
def splitNames (declaration : Text) : Except Fault (Text × Text) :=
  match splitColon? declaration with
  | some parts => .ok parts
  | none => .error .missingColon

/-- The subtype and the default, if any, of the part of a declaration behind its colon. -/
def splitDefault (t : Text) : Except Fault (Text × Option Text) :=
  match splitAssignment? t with
  | none => .ok (t.trim, none)
  | some (subtype, value) =>
      if value.trim = [] then .error .missingDefault else .ok (subtype.trim, some value.trim)

/-- One declared name. -/
def name (t : Text) : Except Fault Identifier :=
  match Identifier.ofText t with
  | .ok i => .ok i
  | .error f => .error (.badName t f)

/-- The names in the part of a declaration before its colon, which may follow the word
for the class of the objects. -/
def names (objectClass t : Text) : Except Fault (List Identifier) :=
  (split ',' ((stripWord? objectClass t).getD t)).mapM name

end Declaration

end Testbench.Vhdl
