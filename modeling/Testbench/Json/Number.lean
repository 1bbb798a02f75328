import Testbench.Text.Double

/-!
# JSON numbers

A number of JSON is a whole part, a fraction and an exponent of ten, the last two of
which may be missing.  A number is in range when it can be held as a double precision
number.  Its digits count as long as they make a number below `2 ^ 64`; this number and
the power of ten that belongs to it are rounded to double precision before they are
multiplied, and so is their product.
-/

namespace Testbench.Json

/-- The digits and the exponent of a number, without its sign. -/
structure Number where
  whole : Text
  fraction : Text
  exponent : Int
  deriving DecidableEq

namespace Number

/-! ### Range -/

/-- The number that digits continue as long as it stays below `2 ^ 64`, and the number of
digits that were used. -/
def significand (n : Nat) : Text → Nat × Nat
  | [] => (n, 0)
  | c :: r =>
      let m := n * 10 + (c.toNat - '0'.toNat)
      if m < Nat.pow 2 64 then
        let (s, used) := significand m r
        (s, used + 1)
      else (n, 0)

/-- Whether a number can be held in double precision. -/
def inRange (n : Number) : Bool :=
  let (s, used) := significand 0 n.whole
  let (s, usedInFraction) := significand s n.fraction
  let exponent : Int := (n.whole.length - used : Nat) - (usedInFraction : Int) + n.exponent
  s == 0 || exponent < 0 ||
    (exponent ≤ 308 &&
      Double.round s * Double.round (Nat.pow 10 exponent.toNat) < Double.overflow)

/-! ### Reading -/

/-- The digits at the start of a text, if there are any, and the rest. -/
def digits? (t : Text) : Option (Text × Text) :=
  match t.takeWhile Char.isDigit with
  | [] => none
  | digits => some (digits, t.dropWhile Char.isDigit)

/-- The fraction that a text begins with, or no digits, and the rest. -/
def readFraction? : Text → Option (Text × Text)
  | '.' :: r => digits? r
  | t => some ([], t)

/-- The value of an exponent behind its mark, and the rest. -/
def readPower? : Text → Option (Int × Text)
  | '-' :: r => (digits? r).map fun (d, r) => (-(Nat.ofDigitChars 10 d 0 : Int), r)
  | '+' :: r => (digits? r).map fun (d, r) => (Nat.ofDigitChars 10 d 0, r)
  | t => (digits? t).map fun (d, r) => (Nat.ofDigitChars 10 d 0, r)

/-- The exponent that a text begins with, or zero, and the rest. -/
def readExponent? : Text → Option (Int × Text)
  | 'e' :: r => readPower? r
  | 'E' :: r => readPower? r
  | t => some (0, t)

/-- The number that a text begins with, and the rest.  A whole part of several digits
does not begin with a zero. -/
def read? (t : Text) : Option (Number × Text) := do
  let (whole, r) ← digits? (if t.head? = some '-' then t.tail else t)
  if whole.head? = some '0' ∧ whole ≠ ['0'] then none
  else
    let (fraction, r) ← readFraction? r
    let (exponent, r) ← readExponent? r
    let n : Number := ⟨whole, fraction, exponent⟩
    if n.inRange then some (n, r) else none

end Number

end Testbench.Json
