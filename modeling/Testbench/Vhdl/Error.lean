import Testbench.Vhdl.Declaration
import Testbench.Vhdl.Range

/-!
# Errors in source

The reasons for which a source text does not describe an entity, and their wording.
-/

namespace Testbench.Vhdl

/-- Why a source text does not describe an entity. -/
inductive Error where
  | entityNotFound
  | nameMismatch (name closing : Text)
  | multipleEntities (count : Nat)
  | malformedGeneric (declaration : Text) (fault : Declaration.Fault)
  | malformedPort (declaration : Text) (fault : Declaration.Fault)
  | invalidRange (declaration : Text) (fault : Range.Fault)
  | unsupportedType (type port : Text)
  | duplicatePort (name : Text)
  | invalidIdentifier (name : Text)
  deriving DecidableEq

/-- The name of the kind of an error, whatever it says about the source. -/
def Error.kind : Error → Text
  | .entityNotFound => "EntityNotFound"
  | .nameMismatch .. => "NameMismatch"
  | .multipleEntities .. => "MultipleEntities"
  | .malformedGeneric .. => "MalformedGeneric"
  | .malformedPort .. => "MalformedPort"
  | .invalidRange .. => "InvalidWidthSpecification"
  | .unsupportedType .. => "UnsupportedDataType"
  | .duplicatePort .. => "DuplicatePort"
  | .invalidIdentifier .. => "InvalidIdentifier"

/-- The wording of an error. -/
def Error.message : Error → Text
  | .entityNotFound => "no entity declaration found"
  | .nameMismatch n c =>
      "entity " ++ n.quoted ++ " is closed with mismatched name " ++ c.quoted
  | .multipleEntities n =>
      "found " ++ Text.ofNat n ++
        " entity declarations but exactly one is supported per input"
  | .malformedGeneric d f => "malformed generic declaration " ++ d.quoted ++ ": " ++ f.message
  | .malformedPort d f => "malformed port declaration " ++ d.quoted ++ ": " ++ f.message
  | .invalidRange d f => "invalid width specification " ++ d.quoted ++ ": " ++ f.message
  | .unsupportedType t p => "unsupported data type " ++ t.quoted ++ " for port " ++ p.quoted
  | .duplicatePort n => "port " ++ n.quoted ++ " is declared more than once"
  | .invalidIdentifier n => "invalid identifier " ++ n.quoted

end Testbench.Vhdl
