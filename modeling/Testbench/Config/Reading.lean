import Testbench.Config.Basic
import Testbench.Toml.Reading

/-!
# Reading configurations

`Config.ofText?` reads a configuration from a TOML text.  Its tables are `bench`,
`stimulus`, `format`, `generics`, `simulator` and `env`; each of them may be missing, and
so may every setting in it but the command of the simulator.  A table or a setting that
is not known is refused.  In place of a table of settings an array may stand that holds
its values in their order.
-/

namespace Testbench.Config

open Layout Stimulus

/-! ### Settings -/

/-- Whether a value is a group of settings: a table whose keys are among `names`, or an
array with at least `least` items. -/
def isGroup (names : List Text) (least : Nat) : Toml → Bool
  | .table _ entries => entries.all fun (k, _) => names.contains k
  | .array items => least ≤ items.length
  | _ => false

/-- The setting of a group with a name, which is the item with an index in an array. -/
def setting? (index : Nat) (name : Text) : Toml → Option Toml
  | .table _ entries => Toml.Entries.get? name entries
  | .array items => items[index]?
  | _ => none

/-- The value that `read` gives for a setting, or `default` when the setting is missing. -/
def settingOr {α : Type} (default : α) (index : Nat) (name : Text) (read : Toml → Option α)
    (v : Toml) : Option α :=
  match setting? index name v with
  | none => some default
  | some w => read w

/-- A text. -/
def text? : Toml → Option Text
  | .string t => some t
  | _ => none

/-- A truth value. -/
def truth? : Toml → Option Bool
  | .boolean b => some b
  | _ => none

/-- A whole number that is not negative and less than `limit`. -/
def number? (limit : Nat) : Toml → Option Nat
  | .integer (.ofNat n) => if n < limit then some n else none
  | _ => none

/-- A list of texts. -/
def texts? : Toml → Option (List Text)
  | .array items => items.mapM text?
  | _ => none

/-- The key under which a time stands when a table of texts is asked for. -/
def timeKey : Text := "$__toml_private_datetime"

/-- A table of texts.  A time counts as a table with a single entry, its text. -/
def dictionary? : Toml → Option Dictionary
  | .time t => some (Dictionary.ofList [(timeKey, t.text)])
  | .table _ entries => do
      return Dictionary.ofList (← entries.mapM fun (k, v) => do return (k, ← text? v))
  | _ => none

/-- The numbers that fit into 64 bits lie below this one. -/
def wordLimit : Nat := Nat.pow 2 64

/-- The numbers that fit into a byte lie below this one. -/
def byteLimit : Nat := Nat.pow 2 8

/-! ### Tables -/

/-- The settings of the bench. -/
def readBench? (v : Toml) : Option Bench.Settings := do
  guard (isGroup ["clock-half-period", "settle-delay", "reset-duration", "instance-name",
    "architecture-name", "suffix"] 6 v)
  let d := Config.standard.bench
  let half ← settingOr d.clockHalfPeriod 0 "clock-half-period" (number? wordLimit) v
  let settle ← settingOr d.settleDelay 1 "settle-delay" (number? wordLimit) v
  let reset ← settingOr d.resetDuration 2 "reset-duration" (number? wordLimit) v
  let label ← settingOr d.instanceName 3 "instance-name" text? v
  let architecture ← settingOr d.architectureName 4 "architecture-name" text? v
  let suffix ← settingOr d.suffix 5 "suffix" text? v
  if h : 0 < half then some ⟨half, settle, reset, label, architecture, suffix, h⟩ else none

/-- The limits of the table of combinations. -/
def readLimits? (v : Toml) : Option Limits := do
  guard (isGroup ["exhaustive-limit", "max-combinations"] 2 v)
  let d := Config.standard
  return ⟨← settingOr d.limits.inputs 0 "exhaustive-limit" (number? wordLimit) v,
    ← settingOr d.limits.rows 1 "max-combinations" (number? wordLimit) v⟩

/-- The style of the layout. -/
def readStyle? (v : Toml) : Option Style := do
  guard (isGroup ["tab-size", "type-auto-alignment", "type-offset", "mapping-auto-alignment",
    "mapping-offset"] 5 v)
  let number (w : Toml) : Option (Option Nat) := (number? byteLimit w).map some
  let truth (w : Toml) : Option (Option Bool) := (truth? w).map some
  return ⟨← settingOr none 0 "tab-size" number v,
    ← settingOr none 1 "type-auto-alignment" truth v,
    ← settingOr none 2 "type-offset" number v,
    ← settingOr none 3 "mapping-auto-alignment" truth v,
    ← settingOr none 4 "mapping-offset" number v⟩

/-- The simulator. -/
def readSimulator? (v : Toml) : Option Simulator := do
  guard (isGroup ["command", "args"] 1 v)
  return ⟨← setting? 0 "command" v >>= text?, ← settingOr [] 1 "args" texts? v⟩

/-- The configuration of the entries of a text. -/
def ofEntries? (entries : Toml.Entries) : Option Config := do
  let v := Toml.table .header entries
  guard (isGroup ["bench", "stimulus", "format", "generics", "simulator", "env"] 0 v)
  let d := Config.standard
  let bench ← settingOr d.bench 0 "bench" readBench? v
  let limits ← settingOr d.limits 1 "stimulus" readLimits? v
  let style ← settingOr d.style 2 "format" readStyle? v
  let generics ← settingOr d.generics 3 "generics" dictionary? v
  let simulator ← settingOr d.simulator 4 "simulator" readSimulator? v
  let env ← settingOr d.env 5 "env" (fun w => (dictionary? w).map some) v
  return { bench, limits, style, generics, simulator, env }

/-- Reads a configuration. -/
def ofText? (t : Text) : Option Config := Toml.ofText? t >>= ofEntries?

/-- Reads the style of the layout from a text of its own. -/
def styleOfText? (t : Text) : Option Style := do
  readStyle? (.table .header (← Toml.ofText? t))

end Testbench.Config
