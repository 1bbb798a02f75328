import Testbench.Text.Basic

/-!
# Digits

The digits of the bases up to sixteen: `digit?` is the value of one, and `number?` the
number that several write, the most significant first.
-/

namespace Testbench

namespace Text

/-- The value of a character as a digit of a base, with letters in either case. -/
def digit? (base : Nat) (c : Char) : Option Nat :=
  let value :=
    if c.isDigit then some (c.toNat - '0'.toNat)
    else if 'a' ≤ c ∧ c ≤ 'f' then some (c.toNat - 'a'.toNat + 10)
    else if 'A' ≤ c ∧ c ≤ 'F' then some (c.toNat - 'A'.toNat + 10)
    else none
  value.filter (· < base)

/-- The number that a text writes in the digits of a base; an empty text writes zero. -/
def number? (base : Nat) (t : Text) : Option Nat :=
  t.foldlM (fun n c => (digit? base c).map (n * base + ·)) 0

end Text

end Testbench
