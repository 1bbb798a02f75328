import Testbench.Text.Basic

/-!
# Double precision

Numbers in texts are held in double precision, with 53 significant bits.  `overflow` is
the least number that is too great for it, and `round` is the nearest number with as many
bits.
-/

namespace Testbench.Double

/-- The nearest number with 53 significant bits, the one with an even last bit of two. -/
def round (n : Nat) : Nat :=
  let unit := Nat.pow 2 (n.log2 - 52)
  let q := n / unit
  let rest := 2 * (n % unit)
  if unit < rest ∨ (rest = unit ∧ q % 2 = 1) then (q + 1) * unit else q * unit

/-- The least number that rounds to infinity in double precision. -/
def overflow : Nat := Nat.pow 2 1024 - Nat.pow 2 970

/-- Whether the number that `digits` write, times ten to the power `exponent`, rounds to
infinity.  A number with an exponent above 309 does so unless it is zero, and a number
below `10 ^ 308` does not. -/
def overflows (digits : Text) (exponent : Int) : Bool :=
  let n := Nat.ofDigitChars 10 digits 0
  if n = 0 ∨ exponent + digits.length ≤ 308 then false
  else if 309 < exponent then true
  else overflow * Nat.pow 10 (-exponent).toNat ≤ n * Nat.pow 10 exponent.toNat

end Testbench.Double
