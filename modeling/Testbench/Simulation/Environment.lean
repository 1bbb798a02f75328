import Testbench.Text.Case
import Testbench.Text.Dictionary

/-!
# Environments of simulators

An `Environment` holds the variables that a simulator is given.  Names are normal: they
are in upper case, with underlines in place of dashes.  The variables that describe the
bench are set first, and variables from a configuration are only added to them.
-/

namespace Testbench

/-- The normal form of the name of a variable. -/
def variableName (name : Text) : Text := name.upper.map fun c => if c = '-' then '_' else c

/-- A variable with its value. -/
structure Variable where
  name : Text
  value : Text
  deriving DecidableEq

/-- A variable as it is written in an environment. -/
def Variable.text (v : Variable) : Text := v.name ++ "=" ++ v.value

/-- A variable as messages show it. -/
def Variable.shown (v : Variable) : Text := v.name ++ "=\"" ++ v.value ++ "\""

/-- The variables that a simulator is given. -/
structure Environment where
  values : Dictionary
  deriving DecidableEq

namespace Environment

/-- The environment without variables. -/
def empty : Environment := ⟨.empty⟩

/-- The variables in the order of their names. -/
def toList (e : Environment) : List Variable := e.values.entries.map fun (k, v) => ⟨k, v⟩

/-- The variable with a name, in whatever form the name is written. -/
def get? (e : Environment) (name : Text) : Option Variable :=
  (e.values.get? (variableName name)).map (⟨variableName name, ·⟩)

/-- Whether a variable with a name is new, and the environment to which it has been added
if it is. -/
def insert (e : Environment) (name value : Text) : Bool × Environment :=
  ((e.get? name).isNone, ⟨e.values.add (variableName name) value⟩)

/-- The environment in which a variable has a value. -/
def overwrite (e : Environment) (name value : Text) : Environment :=
  ⟨e.values.put (variableName name) value⟩

/-- The environment with the variables that describe a bench: the name of its entity, its
own name, its file, and the directory of its files. -/
def describe (e : Environment) (entity top bench directory : Text) : Environment :=
  (((e.overwrite "ENTITY_NAME" entity).overwrite "TBGEN_TOP" top).overwrite
    "TBGEN_BENCH" bench).overwrite "TBGEN_OUT_DIR" directory

/-- The environment with further variables, and the names that were not added because the
environment had them already. -/
def addAll (e : Environment) : List (Text × Text) → Environment × List Text
  | [] => (e, [])
  | (name, value) :: r =>
      let (isNew, e) := e.insert name value
      let (e, ignored) := e.addAll r
      (e, if isNew then ignored else name :: ignored)

end Environment

end Testbench
