import Testbench.Text.Basic

/-!
# Decimal numbers

`decimal? limit t` reads a text of decimal digits as a number below `limit`.  Reading
the digits that `Text.ofNat` writes gives the number back.
-/

namespace Testbench

namespace Text

/-- The number below `limit` that `t` writes in decimal digits. -/
def decimal? (limit : Nat) (t : Text) : Option Nat :=
  if t ≠ [] ∧ t.all Char.isDigit then
    let n := Nat.ofDigitChars 10 t 0
    if n < limit then some n else none
  else none

theorem ofNat_ne_nil (n : Nat) :
  ofNat n ≠ []
  := Nat.toDigits_ne_nil

theorem isDigit_of_mem_ofNat {n : Nat} {c : Char} (h : c ∈ ofNat n) :
  c.isDigit
  := Nat.isDigit_of_mem_toDigits (by decide) (by decide) h

/-- Writing a number and reading it gives it back. -/
theorem decimal?_ofNat {limit n : Nat} (h : n < limit) :
  decimal? limit (ofNat n) = some n
  := by
  have digits : (ofNat n).all Char.isDigit :=
    List.all_eq_true.2 fun _ hc => isDigit_of_mem_ofNat hc
  have value : Nat.ofDigitChars 10 (ofNat n) 0 = n :=
    Nat.ofDigitChars_toDigits (by decide) (by decide)
  rw [decimal?, if_pos ⟨ofNat_ne_nil n, digits⟩, value, if_pos h]

end Text

end Testbench
