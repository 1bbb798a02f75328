import Testbench.Check.Token
import Testbench.Vhdl.Entity

/-!
# What a bench lacks

A bench is compatible with an entity when it declares the entity as a component or
instantiates it directly, has an instance of it, and associates each of its ports by
name.  `missing` lists what a bench lacks of this.
-/

namespace Testbench.Check

open Vhdl

/-- What a bench may lack. -/
inductive Missing where
  | component
  | instantiation
  | port (name : Text)
  deriving DecidableEq

/-- The wording of what is missing. -/
def Missing.message : Missing → Text
  | .component => "no component declaration"
  | .instantiation => "no instance"
  | .port name => "port " ++ name.quoted ++ " is not mapped"

/-- Whether a component with a name is declared among the tokens, where `prev` is the
token before them. -/
def declares (name : Text) : (prev : Option Token) → List Token → Bool
  | _, [] => false
  | prev, t :: r =>
      (t == .word "component" && r.head? == some (.word name) && prev != some .colon &&
        prev != some (.word "end")) || declares name (some t) r

/-- How a bench can instantiate an entity: as a component, or directly. -/
inductive Instance where
  | component
  | direct
  deriving DecidableEq

/-- The instance of the entity with a name that the tokens behind a colon begin, if they
do. -/
def instance? (name : Text) (behind : List Token) : Option Instance :=
  if behind[0]? = some (.word "component") ∧ behind[1]? = some (.word name) then
    some .component
  else if behind[0]? = some (.word name) then some .component
  else if behind[0]? = some (.word "entity") ∧ behind[2]? = some .dot ∧
      behind[3]? = some (.word name) then
    some .direct
  else none

/-- The instances of the entity with a name among the tokens. -/
def instances (name : Text) : List Token → List Instance
  | [] => []
  | t :: r => (if t = .colon then (instance? name r).toList else []) ++ instances name r

/-- Whether the tokens associate the port with a name. -/
def associates (name : Text) : List Token → Bool
  | [] => false
  | t :: r => (t == .word name && r.head? == some .arrow) || associates name r

/-- What the tokens of a bench lack of an entity. -/
def missingFrom (e : Entity) (tokens : List Token) : List Missing :=
  let found := instances e.name.key tokens
  (if declares e.name.key none tokens || found.contains .direct then [] else [.component]) ++
    (if found = [] then [.instantiation] else []) ++
    (e.ports.filter fun p => !associates p.name.key tokens).map fun p => .port p.name.text

/-- What a bench lacks of an entity. -/
def missing (e : Entity) (bench : Text) : List Missing := missingFrom e (tokens bench)

end Testbench.Check
