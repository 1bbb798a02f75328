import Testbench.Vhdl.Entity
import Testbench.Vhdl.Header
import Testbench.Vhdl.Normal

/-!
# Entities in source

`Entity.ofSource` reads the one entity that a VHDL source text declares.  Comments are
removed first, then the declaration is found, and the generics and ports are read from
its body.
-/

namespace Testbench.Vhdl

/-- The entity that a source text declares. -/
def Entity.ofSource (t : Text) : Except Error Entity := do
  let declared ← EntityText.ofSource (normalize t)
  let generics ← Generic.ofBody declared.body
  let ports ← Port.ofBody declared.body
  Entity.ofParts declared.name generics ports

end Testbench.Vhdl
