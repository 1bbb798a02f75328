import Testbench.Proofs.Case.Character
import Testbench.Text.Decimal

/-!
# Texts in lower case

Putting a text into lower case commutes with cutting, trimming and joining texts, and a text
in lower case stays as it is.
-/

namespace Testbench.Text

open Vhdl

variable {s t : Text} {p : Char → Bool}

@[simp]
theorem lower_nil :
  lower [] = []
  := rfl

@[simp]
theorem lower_cons (c : Char) (t : Text) :
  lower (c :: t) = c.toLower :: lower t
  := rfl

theorem toLower_toLower (c : Char) :
  c.toLower.toLower = c.toLower
  := by
  apply apply_toLower Char.toLower
  decide

@[simp]
theorem lower_lower (t : Text) :
  lower (lower t) = lower t
  := by
  induction t with
  | nil => rfl
  | cons c t ih => rw [lower_cons, lower_cons, toLower_toLower, ih]

@[simp]
theorem sameWord_lower (s t : Text) :
  sameWord (lower s) t = sameWord s t
  := by
  rw [sameWord, sameWord, lower_lower]

@[simp]
theorem sameWord_lower_right (s t : Text) :
  sameWord s (lower t) = sameWord s t
  := by
  rw [sameWord, sameWord, lower_lower]

@[simp]
theorem lower_eq_nil_iff :
  lower t = [] ↔ t = []
  := List.map_eq_nil_iff

/-- A text begins with a mark exactly if it does so in lower case. -/
theorem lower_cases_mark {x : Char} (hx : IsMark x) (t : Text) :
  (∃ r, t = x :: r ∧ lower t = x :: lower r) ∨
    (∀ r, t = x :: r → False) ∧ ∀ r, lower t = x :: r → False
  := by
  cases t with
  | nil => simp
  | cons c r =>
    by_cases mark : c = x
    · subst mark
      left
      use r, rfl
      rw [lower_cons, (toLower_eq_iff hx).2 rfl]
    · right
      constructor
      · intro r' eq
        apply mark (List.cons.inj eq).1
      · intro r' eq
        rw [lower_cons] at eq
        apply mark ((toLower_eq_iff hx).1 (List.cons.inj eq).1)

theorem lower_eq_of_isMark (hs : ∀ x ∈ s, IsMark x) :
  lower s = s
  := by
  have kept : ∀ x ∈ s, x.toLower = id x := fun x hx => (toLower_eq_iff (hs x hx)).2 rfl
  rw [lower, List.map_congr_left kept, List.map_id]

/-- A text begins with marks exactly if it does so in lower case. -/
theorem isPrefix_lower_iff (hs : ∀ x ∈ s, IsMark x) :
  s <+: lower t ↔ s <+: t
  := by
  induction s generalizing t with
  | nil => simp
  | cons x s ih =>
    cases t with
    | nil => simp
    | cons c t =>
      rw [lower_cons, List.cons_prefix_cons, List.cons_prefix_cons,
        ih fun y hy => hs y (List.mem_cons_of_mem x hy), eq_comm,
        toLower_eq_iff (hs x List.mem_cons_self), eq_comm]

theorem lower_take (n : Nat) (t : Text) :
  lower (t.take n) = (lower t).take n
  := List.map_take

theorem lower_drop (n : Nat) (t : Text) :
  lower (t.drop n) = (lower t).drop n
  := List.map_drop

@[simp]
theorem head?_lower (t : Text) :
  (lower t).head? = t.head?.map Char.toLower
  := List.head?_map

/-- The longest start with a property is kept in lower case if the property does not depend on
case. -/
theorem takeWhile_lower (hp : ∀ c, p c.toLower = p c) (t : Text) :
  (lower t).takeWhile p = lower (t.takeWhile p)
  := by
  induction t with
  | nil => rfl
  | cons c t ih =>
    rw [lower_cons, List.takeWhile_cons, List.takeWhile_cons, hp, ih]
    split <;> rfl

theorem dropWhile_lower (hp : ∀ c, p c.toLower = p c) (t : Text) :
  (lower t).dropWhile p = lower (t.dropWhile p)
  := by
  induction t with
  | nil => rfl
  | cons c t ih =>
    rw [lower_cons, List.dropWhile_cons, List.dropWhile_cons, hp, ih]
    split <;> rfl

@[simp]
theorem trimStart_lower (t : Text) :
  (lower t).trimStart = lower t.trimStart
  := dropWhile_lower isBlank_toLower t

@[simp]
theorem trimEnd_lower (t : Text) :
  (lower t).trimEnd = lower t.trimEnd
  := by
  rw [trimEnd, lower, ← List.map_reverse, ← lower, dropWhile_lower isBlank_toLower, lower,
    ← List.map_reverse, ← lower]
  rfl

@[simp]
theorem trim_lower (t : Text) :
  (lower t).trim = lower t.trim
  := by
  rw [trim, trimStart_lower, trimEnd_lower]
  rfl

theorem lower_flatMap {α : Type} (f : α → Text) (xs : List α) :
  lower (xs.flatMap f) = xs.flatMap fun x => lower (f x)
  := List.map_flatMap

theorem lower_flatten (ts : List Text) :
  lower ts.flatten = (ts.map lower).flatten
  := List.map_flatten

theorem lower_join (s : Text) (ts : List Text) :
  lower (join s ts) = join (lower s) (ts.map lower)
  := by
  induction ts with
  | nil => rfl
  | cons t ts ih =>
    cases ts with
    | nil => simp [join]
    | cons t' ts =>
      rw [join, List.intercalate_cons_cons, lower_append, lower_append, ← join, ih]
      simp [join]

/-- Digits have no other case. -/
theorem toLower_of_isDigit {c : Char} (hc : c.isDigit) :
  c.toLower = c
  := by
  have small : c.toNat ≤ 57 := by
    simp only [Char.isDigit, Bool.and_eq_true, decide_eq_true_eq, ge_iff_le,
      UInt32.le_iff_toNat_le] at hc
    exact hc.2
  have all : ∀ i : Fin 58, (Char.ofNat i).toLower = Char.ofNat i := by decide
  have := all ⟨c.toNat, by omega⟩
  rwa [Char.ofNat_toNat] at this

theorem lower_of_isDigit (ht : ∀ c ∈ t, c.isDigit) :
  lower t = t
  := by
  induction t with
  | nil => rfl
  | cons c t ih =>
    rw [lower_cons, toLower_of_isDigit (ht c List.mem_cons_self),
      ih fun d hd => ht d (List.mem_cons_of_mem c hd)]

/-- Whether a text is a number, and which, does not depend on case. -/
@[simp]
theorem decimal?_lower (limit : Nat) (t : Text) :
  decimal? limit (lower t) = decimal? limit t
  := by
  by_cases digits : ∀ c ∈ t, c.isDigit
  · rw [lower_of_isDigit digits]
  · have same : (lower t).all Char.isDigit = t.all Char.isDigit := by
      simp [lower, Function.comp_def]
    have other : ¬(t.all Char.isDigit) := by
      simpa using digits
    rw [decimal?, decimal?, same, if_neg fun h => other h.2, if_neg fun h => other h.2]

end Testbench.Text
