import Testbench.Bench.Constant
import Testbench.Bench.Name

/-!
# Processes

The processes of a bench: one toggles the clock until the bench is done, one releases the
reset after a while, and one applies the plan for the data inputs and then reports that
the bench is done.
-/

namespace Testbench.Bench

open Vhdl Stimulus Layout

/-- A line of a bench. -/
def line (style : Style) (depth : Nat) (t : Text) : Text := style.indent depth ++ t ++ "\n"

/-- The assignment of a value to a port; the bit of a vector that is set alone is
assigned behind the vector. -/
def assign (style : Style) (depth : Nat) (p : Port) (v : Value) : Except Error Text := do
  let whole ← render v p
  let single :=
    match v with
    | .setBit index => line style depth (p.name.text ++ "(" ++ index.text ++ ") <= '1';")
    | _ => []
  return line style depth (p.name.text ++ " <= " ++ whole ++ ";") ++ single

/-- A statement that lets time pass. -/
def wait (style : Style) (depth : Nat) (d : Delay) : Text :=
  line style depth ("wait for " ++ d.text ++ ";")

/-- A process with a label and statements, which stops at its end. -/
def process (style : Style) (label statements : Text) : Text :=
  line style 1 (label ++ " : process") ++ line style 1 "begin" ++ statements ++
    line style 2 "wait;" ++ line style 1 "end process;"

/-- The process that toggles the clock while the flag `done` is not set. -/
def clockProcess (e : Entity) (style : Style) (settings : Settings) (done : Text)
    (clock : Port) : Except Error Text := do
  let low ← assign style 3 clock (.logic clock.type false)
  let high ← assign style 3 clock (.logic clock.type true)
  let half := wait style 3 settings.clockHalfPeriod
  return process style (freshName e "clock_process")
    (line style 2 ("while not " ++ done ++ " loop") ++ low ++ half ++ high ++ half ++
      line style 2 "end loop;")

/-- The process that sets the reset at its start and releases it after a while. -/
def resetProcess (e : Entity) (style : Style) (settings : Settings) (activeLow : Bool)
    (reset : Port) : Except Error Text := do
  let active ← assign style 2 reset (.logic reset.type !activeLow)
  let released ← assign style 2 reset (.logic reset.type activeLow)
  return process style (freshName e "reset_process")
    (active ++ wait style 2 settings.resetDuration ++ released)

/-- The statement that waits for the release of the reset. -/
def awaitReset (style : Style) (activeLow : Bool) (reset : Port) : Except Error Text := do
  let released ← render (.logic reset.type activeLow) reset
  return line style 2 ("wait until " ++ reset.name.text ++ " = " ++ released ++ ";")

/-- The statements for the rows of a table of combinations, numbered from `n` on. -/
def combinationRows (ports : List Port) (style : Style) (delay : Delay) (n : Nat) :
    List (List Value) → Except Error Text
  | [] => .ok []
  | values :: more => do
    let assigned ← (ports.zip values).mapM fun (p, v) => assign style 2 p v
    let rest ← combinationRows ports style delay (n + 1) more
    return line style 2 ("-- combination " ++ Text.ofNat n) ++ assigned.flatten ++
      wait style 2 delay ++ rest

/-- The statements for a table of combinations. -/
def combinationStatements (e : Entity) (style : Style) (c : Combinations) :
    Except Error Text :=
  combinationRows (c.ports.filterMap (e.ports[·]?)) style c.delay 0 c.rows

/-- The statements for the sequence of a port. -/
def sequenceStatements (style : Style) (p : Port) (steps : List Step) : Except Error Text := do
  let assigned ← steps.mapM fun s =>
    return (← assign style 2 p s.value) ++ wait style 2 s.delay
  return line style 2 ("-- sequence for " ++ p.name.text) ++ assigned.flatten

/-- The process that applies a plan, behind the reset if there is one, and sets the flag
`done`. -/
def stimulusProcess (e : Entity) (style : Style) (roles : Roles) (plan : Plan) (done : Text) :
    Except Error Text := do
  let start ←
    match roles.reset.bind (e.ports[·]?) with
    | some reset => awaitReset style roles.activeLow reset
    | none => .ok []
  let table ←
    match plan.combinations with
    | some c => combinationStatements e style c
    | none => .ok []
  let sequences ← (plan.sequences.filterMap fun (i, steps) =>
    (e.ports[i]?).map (·, steps)).mapM fun (p, steps) => sequenceStatements style p steps
  return process style (freshName e "stimulus_process")
    (start ++ table ++ sequences.flatten ++ line style 2 (done ++ " <= true;"))

end Testbench.Bench
