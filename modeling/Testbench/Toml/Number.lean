import Testbench.Text.Digits
import Testbench.Text.Double

/-!
# Numbers of TOML

A number of TOML may have a sign, and underlines may separate its digits.  `integer?`
reads whole numbers of 64 bits in four bases, and `isReal` tells which texts are real
numbers: those with an exponent or a fraction, infinity, and the number that is none.  A real
number that is too great is refused; one that is too far below zero is not.
-/

namespace Testbench.Toml

/-- The digits of a number in groups that underlines separate. -/
def ungroup? (isDigit : Char → Bool) (t : Text) : Option Text :=
  let closed := t.getLast? != some '_' && t.head? != some '_'
  let separated := (t.zip t.tail).all fun (a, b) => a != '_' || b != '_'
  let digits := t.filter (· != '_')
  if closed && separated && digits != [] && digits.all isDigit then some digits else none

/-- The decimal digits of a number without a needless zero in front. -/
def wholeDigits? (t : Text) : Option Text :=
  if t.head? = some '0' ∧ t ≠ ['0'] then none else ungroup? Char.isDigit t

/-! ### Whole numbers -/

/-- The number that the grouped digits of a base write. -/
def digits? (base : Nat) (t : Text) : Option Nat :=
  ungroup? (fun c => (Text.digit? base c).isSome) t >>= Text.number? base

/-- The number that decimal digits write without a needless zero in front. -/
def decimal? (t : Text) : Option Nat :=
  (wholeDigits? t).map fun digits => Nat.ofDigitChars 10 digits 0

/-- Whether a number is in the range of 64-bit signed integers. -/
def isInt64 (n : Int) : Bool := -9223372036854775808 ≤ n && n ≤ 9223372036854775807

/-- The whole number that a text writes, in whatever range it is. -/
def unbounded? : Text → Option Int
  | '0' :: 'x' :: r => (digits? 16 r).map Int.ofNat
  | '0' :: 'o' :: r => (digits? 8 r).map Int.ofNat
  | '0' :: 'b' :: r => (digits? 2 r).map Int.ofNat
  | '+' :: r => (decimal? r).map Int.ofNat
  | '-' :: r => (decimal? r).map fun n => -Int.ofNat n
  | t => (decimal? t).map Int.ofNat

/-- The whole number of 64 bits that a text writes. -/
def integer? (t : Text) : Option Int := (unbounded? t).filter isInt64

/-! ### Real numbers -/

/-- Whether a character may stand in a group of digits. -/
def isGrouped (c : Char) : Bool := c.isDigit || c == '_'

/-- The value of an exponent behind its mark. -/
def power? (t : Text) : Option Int :=
  let value (r : Text) : Option Nat :=
    (ungroup? Char.isDigit r).map fun digits => Nat.ofDigitChars 10 digits 0
  match t with
  | '+' :: r => (value r).map Int.ofNat
  | '-' :: r => (value r).map fun n => -Int.ofNat n
  | r => (value r).map Int.ofNat

/-- The value of an exponent, which is zero for an empty text. -/
def exponent? : Text → Option Int
  | [] => some 0
  | 'e' :: r => power? r
  | 'E' :: r => power? r
  | _ => none

/-- The digits and the exponent of ten of a real number without a sign. -/
def parts? (t : Text) : Option (Text × Int) := do
  let whole ← wholeDigits? (t.takeWhile isGrouped)
  match t.dropWhile isGrouped with
  | [] => none
  | '.' :: r =>
      let fraction ← ungroup? Char.isDigit (r.takeWhile isGrouped)
      return (whole ++ fraction, (← exponent? (r.dropWhile isGrouped)) - fraction.length)
  | r => return (whole, ← exponent? r)

/-- Whether a text without a sign writes a real number of any size. -/
def isUnsignedReal (t : Text) : Bool := t == "inf" || t == "nan" || (parts? t).isSome

/-- Whether a text without a sign writes a real number that is not too great. -/
def isBoundedReal (t : Text) : Bool :=
  t == "inf" || t == "nan" || (parts? t).any fun (digits, e) => !Double.overflows digits e

/-- Whether a text writes a real number. -/
def isReal : Text → Bool
  | '-' :: r => isUnsignedReal r
  | '+' :: r => isBoundedReal r
  | t => isBoundedReal t

end Testbench.Toml
