/-!
# Text

A `Text` is the list of its characters, so that a function on texts is a recursion on
the data and a statement about texts is a statement about lists.  A string literal may
stand wherever a text is expected.  `spaces`, `ofNat`, `ofInt` and `join` are the pieces
from which every text written by this library is made.
-/

namespace Testbench

/-- The list of the characters of a piece of writing. -/
abbrev Text := List Char

/-- A string stands for the list of its characters. -/
instance : Coe String Text := ⟨String.toList⟩

namespace Text

section Decidable

variable {p : Char → Prop} [DecidablePred p]

/-- A property of the characters of a text is decided by going through the text, and not through
all characters. -/
instance (priority := high) decidableForallMem (t : Text) : Decidable (∀ c ∈ t, p c) :=
  List.decidableBAll p t

/-- A property of the character that may be there is decided by looking at it. -/
instance (priority := high) decidableForallMemOption (o : Option Char) :
    Decidable (∀ c ∈ o, p c) :=
  Option.decidableForallMem o

end Decidable

/-- A text of `n` spaces. -/
def spaces (n : Nat) : Text := List.replicate n ' '

/-- The decimal digits of `n`, most significant first. -/
def ofNat (n : Nat) : Text := Nat.toDigits 10 n

/-- The decimal digits of `n`, behind a minus sign when `n` is negative. -/
def ofInt : Int → Text
  | .ofNat n => ofNat n
  | .negSucc n => '-' :: ofNat (n + 1)

/-- The texts `ts` in order, with `sep` between each two of them. -/
def join (sep : Text) (ts : List Text) : Text := List.intercalate sep ts

@[simp]
theorem length_spaces (n : Nat) :
  (spaces n).length = n
  := List.length_replicate

/-- Every character of `spaces n` is a space. -/
theorem eq_space_of_mem_spaces {n : Nat} {c : Char} (h : c ∈ spaces n) :
  c = ' '
  := List.eq_of_mem_replicate h

end Text

end Testbench
