import Testbench.Text.Decimal

/-!
# Times

A `Time` is a date, a time of a day, or both, with or without an offset from universal
time.  `Time.ofText?` reads a time and `Time.text` writes it: the parts of a second are
cut off behind nine digits and written without zeros at their end.
-/

namespace Testbench.Toml

/-- A day of a year.  Every month may have 31 days. -/
structure Date where
  year : Nat
  month : Nat
  day : Nat
  deriving DecidableEq

/-- A time of a day.  The last second of a minute may have the number 60. -/
structure Clock where
  hour : Nat
  minute : Nat
  second : Nat
  nanosecond : Nat
  deriving DecidableEq

/-- An offset from universal time: none, or a number of minutes. -/
inductive Offset where
  | zero
  | minutes (n : Int)
  deriving DecidableEq

/-- A date, a time of a day, or both. -/
inductive Time where
  | date (d : Date)
  | clock (c : Clock)
  | both (d : Date) (c : Clock) (offset : Option Offset)
  deriving DecidableEq

namespace Time

/-! ### Reading -/

/-- The number between `low` and `high` that the first `width` characters of a text write
in digits, and the rest. -/
def number? (width low high : Nat) (t : Text) : Option (Nat × Text) := do
  let n ← Text.decimal? (high + 1) (t.take width)
  if low ≤ n ∧ (t.take width).length = width then some (n, t.drop width) else none

/-- The text behind the character `c`. -/
def behind? (c : Char) : Text → Option Text
  | d :: r => if d = c then some r else none
  | [] => none

/-- A date, and the rest. -/
def readDate? (t : Text) : Option (Date × Text) := do
  let (year, r) ← number? 4 0 9999 t
  let (month, r) ← number? 2 1 12 (← behind? '-' r)
  let (day, r) ← number? 2 1 31 (← behind? '-' r)
  return (⟨year, month, day⟩, r)

/-- The number of nanoseconds that the digits behind the point of a second write. -/
def nanoseconds (digits : Text) : Nat :=
  let used := digits.take 9
  Nat.ofDigitChars 10 used 0 * Nat.pow 10 (9 - used.length)

/-- The parts of a second behind its point, or none, and the rest. -/
def readFraction? : Text → Option (Nat × Text)
  | '.' :: r =>
    match r.takeWhile Char.isDigit with
    | [] => none
    | digits => some (nanoseconds digits, r.dropWhile Char.isDigit)
  | t => some (0, t)

/-- A time of a day, and the rest. -/
def readClock? (t : Text) : Option (Clock × Text) := do
  let (hour, r) ← number? 2 0 23 t
  let (minute, r) ← number? 2 0 59 (← behind? ':' r)
  let (second, r) ← number? 2 0 60 (← behind? ':' r)
  let (nanosecond, r) ← readFraction? r
  return (⟨hour, minute, second, nanosecond⟩, r)

/-- The number of minutes that an offset behind its sign makes up. -/
def minutes? (t : Text) : Option Nat := do
  let (hour, r) ← number? 2 0 23 t
  let (minute, r) ← number? 2 0 59 (← behind? ':' r)
  if r = [] then some (60 * hour + minute) else none

/-- The offset that a text writes, which is empty for none. -/
def offset? : Text → Option (Option Offset)
  | [] => some none
  | ['Z'] => some (some .zero)
  | ['z'] => some (some .zero)
  | '+' :: r => (minutes? r).map fun n => some (.minutes n)
  | '-' :: r => (minutes? r).map fun n => some (.minutes (-n))
  | _ => none

/-- The time that a date begins and a text behind its separator continues. -/
def withClock? (d : Date) (t : Text) : Option Time := do
  let (c, r) ← readClock? t
  return both d c (← offset? r)

/-- Reads a time.  A date and the time of the day behind it are separated by a `T` or by a
space. -/
def ofText? (t : Text) : Option Time :=
  match readDate? t with
  | some (d, []) => some (date d)
  | some (d, s :: r) => if s = 'T' ∨ s = 't' ∨ s = ' ' then withClock? d r else none
  | none =>
    match readClock? t with
    | some (c, []) => some (clock c)
    | _ => none

/-! ### Writing -/

/-- The digits of a number behind as many zeros as make up a width. -/
def padded (width n : Nat) : Text :=
  List.replicate (width - (Text.ofNat n).length) '0' ++ Text.ofNat n

end Time

open Time

/-- A date as it is written. -/
def Date.text (d : Date) : Text :=
  padded 4 d.year ++ "-" ++ padded 2 d.month ++ "-" ++ padded 2 d.day

/-- The parts of a second as they are written behind it. -/
def Clock.fraction (c : Clock) : Text :=
  if c.nanosecond = 0 then []
  else '.' :: ((padded 9 c.nanosecond).reverse.dropWhile (· == '0')).reverse

/-- A time of a day as it is written. -/
def Clock.text (c : Clock) : Text :=
  padded 2 c.hour ++ ":" ++ padded 2 c.minute ++ ":" ++ padded 2 c.second ++ c.fraction

/-- An offset as it is written. -/
def Offset.text : Offset → Text
  | .zero => "Z"
  | .minutes n =>
      (if n < 0 then "-" else "+") ++ padded 2 (n.natAbs / 60) ++ ":" ++ padded 2 (n.natAbs % 60)

/-- A time as it is written. -/
def Time.text : Time → Text
  | date d => d.text
  | clock c => c.text
  | both d c offset => d.text ++ "T" ++ c.text ++ ((offset.map Offset.text).getD [])

end Testbench.Toml
