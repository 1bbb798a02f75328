/-!
# Machine words

The numbers of a plan are counted in machine words, the natural numbers below `limit`.  An
operation on words that overflows has no result: a shift by as many places as a word has
bits, or by more, and the difference of a word and a greater one.
-/

namespace Testbench.Stimulus.Word

/-- The number of bits of a word. -/
def size : Nat := 64

/-- Words are the numbers below this one. -/
def limit : Nat := Nat.pow 2 size

/-- The greatest word, all of whose bits are set. -/
def last : Nat := limit - 1

/-- The places by which a number says to shift: its lowest 32 bits. -/
def places (n : Nat) : Nat := n % Nat.pow 2 32

/-- The word `a` with its bits `k` places further up.  The bits that leave the word are
lost. -/
def shiftLeft? (a k : Nat) : Option Nat :=
  if k < size then some ((a <<< k) % limit) else none

/-- The word `a` with its bits `k` places further down. -/
def shiftRight? (a k : Nat) : Option Nat :=
  if k < size then some (a >>> k) else none

/-- The difference of two words. -/
def sub? (a b : Nat) : Option Nat :=
  if b ≤ a then some (a - b) else none

end Testbench.Stimulus.Word
