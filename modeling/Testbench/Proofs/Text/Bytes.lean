import Testbench.Text.Basic
import Mathlib.Tactic.SplitIfs

/-!
# Bytes of texts

The bytes of a text are those of its characters in UTF-8.  They are ordered as the texts are: the
order of code points is the order of bytes.
-/

namespace Testbench.Text

open String

variable {m n : Nat} {c d : Char} {s t : Text}

/-- The bytes of a text in UTF-8. -/
def bytes (t : Text) : List UInt8 := t.flatMap utf8EncodeChar

/-- The bytes of a text are those of the string with its characters. -/
theorem toUTF8_ofList (t : Text) :
  (String.ofList t).toUTF8 = (bytes t).toByteArray
  := String.toByteArray_ofList

theorem ofNat_lt_ofNat (hm : m < 256) (hn : n < 256) :
  UInt8.ofNat m < UInt8.ofNat n ↔ m < n
  := by
  rw [UInt8.lt_iff_toNat_lt, UInt8.toNat_ofNat', UInt8.toNat_ofNat']
  omega

theorem ofNat_inj (hm : m < 256) (hn : n < 256) :
  UInt8.ofNat m = UInt8.ofNat n ↔ m = n
  := by
  rw [← UInt8.toNat_inj, UInt8.toNat_ofNat', UInt8.toNat_ofNat']
  omega

/-- The bytes of a character are before those of a greater one, whatever follows them. -/
theorem utf8EncodeChar_append_lt (h : c < d) (s t : List UInt8) :
  utf8EncodeChar c ++ s < utf8EncodeChar d ++ t
  := by
  have lt : c.val.toNat < d.val.toNat := h
  have bound : d.val.toNat < 0x110000 := by
    have := d.valid
    simp only [UInt32.isValidChar, Nat.isValidChar] at this
    omega
  simp only [utf8EncodeChar]
  generalize c.val.toNat = m at *
  generalize d.val.toNat = n at *
  have top : m / 262144 % 8 = m / 262144 ∧ n / 262144 % 8 = n / 262144 := by omega
  rw [top.1, top.2]
  -- one case for each two lengths, in which the bytes are compared as digits
  split_ifs
  all_goals simp (disch := omega) only [List.cons_append, List.nil_append, List.cons_lt_cons_iff,
    ofNat_lt_ofNat, ofNat_inj]
  all_goals omega

/-- Texts in the order of their characters are in the order of their bytes. -/
theorem bytes_lt_bytes (h : s < t) :
  bytes s < bytes t
  := by
  induction h with
  | @nil c t =>
    obtain ⟨b, bs, eq⟩ := List.exists_cons_of_ne_nil (utf8EncodeChar_ne_nil (c := c))
    rw [bytes, bytes, List.flatMap_cons, eq]
    apply List.nil_lt_cons
  | rel h => apply utf8EncodeChar_append_lt h
  | cons _ ih => apply List.append_left_lt ih

end Testbench.Text
