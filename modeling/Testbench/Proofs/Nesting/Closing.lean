import Testbench.Proofs.Nesting.Balanced

/-!
# Two readers of one parenthesis

A reader who looks for separators and words starts at the outer level and reports the characters
that stand there; of the parentheses it reports those that leave this level and those that come
back to it.  The search for the end of a parenthesis counts by itself and has no use for a closing
parenthesis when none is open.  Both see the same end: the search stops at the first closing
parenthesis that is reported, it never meets one too many, and what it finds inside is balanced and
is read there with the same nesting as in the whole text.
-/

namespace Testbench.Vhdl

open Nesting

variable {n : Nesting} {prev : Option Char} {a t inside rest : Text} {c : Char}

namespace Nesting

/-- Whether a reader reports a character: it stands outside of strings and parentheses, or it closes
a parenthesis behind which nothing is open.  Quotes are not reported. -/
def reports (n : Nesting) (c : Char) : Bool :=
  !n.quoted && c != '"' && (if c = ')' then n.depth - 1 == 0 else n.depth == 0)

/-- Characters other than parentheses and quotes are reported exactly at the outer level. -/
theorem reports_of_isPlain (hc : IsPlain c) :
  n.reports c = n.isOuter
  := by
  obtain ⟨quote, -, closing⟩ := hc
  have noQuote : (c != '"') = true := bne_iff_ne.2 quote
  simp [reports, isOuter, noQuote, closing, Bool.and_comm]

/-- The characters that are reported, with their indices, of a text that begins at an index. -/
def reported (n : Nesting) (i : Nat) : Text → List (Nat × Char)
  | [] => []
  | c :: t =>
      let further := (n.next c).reported (i + 1) t
      if n.reports c then (i, c) :: further else further

/-- The first closing parenthesis that is reported. -/
def firstReturn? (n : Nesting) (i : Nat) (t : Text) : Option (Nat × Char) :=
  (n.reported i t).find? fun x => x.2 == ')'

/-- A character other than a closing parenthesis that is reported is passed over. -/
theorem firstReturn?_cons {i : Nat} (h : n.reports c → c ≠ ')') :
  n.firstReturn? i (c :: t) = (n.next c).firstReturn? (i + 1) t
  := by
  rw [firstReturn?, reported]
  by_cases shown : n.reports c
  · simp [shown, h shown, firstReturn?]
  · simp [shown, firstReturn?]

/-- Inside a parenthesis the first return is the first closing parenthesis that stands at the outer
level when this parenthesis is not counted. -/
theorem firstReturn?_raise (n : Nesting) (prev : Option Char) (i : Nat) (t : Text) :
  (n.raise 1).firstReturn? i t =
    (splitWhere (fun _ r => r.head? == some ')') n prev t).map
      fun (inside, _) => (i + inside.length, ')')
  := by
  induction t generalizing n prev i with
  | nil => rfl
  | cons c t ih =>
    by_cases here : n.isOuter ∧ c = ')'
    · obtain ⟨outer, rfl⟩ := here
      rw [isOuter_iff] at outer
      subst outer
      rfl
    · have deeper : (n.raise 1).reports c → c ≠ ')' := by
        rintro shown rfl
        apply here
        simpa [reports, raise, isOuter, and_comm] using shown
      rw [firstReturn?_cons deeper, next_raise here, ih (n.next c) (some c), splitWhere,
        if_neg (by simpa using here), Option.map_map]
      congr 1
      funext parts
      simp [Nat.add_right_comm, Nat.add_assoc]

end Nesting

/-- The search for the end of an open parenthesis meets none that is closed without being open. -/
theorem closeFrom_ne_unopened {depth : Nat} {quoted : Bool} (positive : 0 < depth) :
  closeFrom depth quoted t ≠ .unopened
  := by
  obtain ⟨d, rfl⟩ := Nat.exists_eq_add_of_le' positive
  rw [show closeFrom (d + 1) quoted t = _ from closeFrom_eq ⟨d, quoted⟩ none t]
  cases splitWhere (fun _ r => r.head? == some ')') ⟨d, quoted⟩ none t <;> simp

/-- The nesting in a balanced parenthesis is the one that a reader of its inside sees, with the
parenthesis and those around it counted. -/
theorem after_opening (hi : Balanced inside) (hn : n.quoted = false) (ha : a <+: inside) :
  n.after ('(' :: a) = (outer.after a).raise (n.depth + 1)
  := by
  obtain ⟨b, rfl⟩ := ha
  have opened : n.next '(' = outer.raise (n.depth + 1) := by
    simp [next, hn, raise, outer]
  rw [after_cons, opened, after_raise (lacks_append.1 hi.lacks).1]

/-- The search for the end of the parenthesis with which a text begins counts below zero in no
case.  It ends at the first closing parenthesis that a reader of the text reports, and finds nothing
if none is reported.  What it finds inside is balanced and is read with the same nesting there as in
the text, however deep the parenthesis stands. -/
theorem splitClosing?_agrees (t : Text) :
  closeFrom 0 false ('(' :: t) ≠ .unopened ∧
  closeFrom 0 false ('(' :: t) =
    (splitClosing? t).elim .missing (fun (inside, rest) => .found ('(' :: inside) rest) ∧
  (splitClosing? t).map (fun (inside, _) => inside.length + 1) =
    (outer.firstReturn? 0 ('(' :: t)).map Prod.fst ∧
  ∀ inside rest, splitClosing? t = some (inside, rest) →
    t = inside ++ ')' :: rest ∧ Balanced inside ∧
      ∀ n : Nesting, n.quoted = false → ∀ a, a <+: inside →
        n.after ('(' :: a) = (outer.after a).raise (n.depth + 1)
  := by
  have start : closeFrom 0 false ('(' :: t) = (closeFrom 1 false t).behind '(' := rfl
  have opened : closeFrom 1 false t ≠ .unopened := closeFrom_ne_unopened Nat.one_pos
  refine ⟨?_, ?_, ?_, ?_⟩
  · rw [start]
    cases found : closeFrom 1 false t with
    | unopened => exact absurd found opened
    | _ => simp [Closing.behind]
  · rw [start, splitClosing?]
    cases found : closeFrom 1 false t with
    | unopened => exact absurd found opened
    | _ => rfl
  · have first : outer.firstReturn? 0 ('(' :: t) = (outer.raise 1).firstReturn? 1 t :=
      firstReturn?_cons (by simp)
    rw [firstReturn?_raise outer none 1 t] at first
    rw [splitClosing?_eq, first, Option.map_map, Option.map_map]
    congr 1
    funext parts
    exact Nat.add_comm parts.1.length 1
  · intro inside rest found
    obtain ⟨eq, balanced⟩ := splitClosing?_eq_some_iff.1 found
    refine ⟨eq, balanced, ?_⟩
    intro n hn a ha
    apply after_opening balanced hn ha

/-- Of four closing parentheses, the first of them in a string, the last one is the end. -/
theorem splitClosing?_agrees_nested :
  splitClosing? "f(\")\", x), g(2)); (" = some (("f(\")\", x), g(2)" : Text), ("; (" : Text)) ∧
    (outer.firstReturn? 0 ('(' :: "f(\")\", x), g(2)); (")).map Prod.fst = some 16 ∧
    Balanced "f(\")\", x), g(2)"
  := by
  have found : splitClosing? "f(\")\", x), g(2)); (" =
      some (("f(\")\", x), g(2)" : Text), ("; (" : Text)) := by decide
  obtain ⟨-, -, index, inner⟩ := splitClosing?_agrees "f(\")\", x), g(2)); ("
  refine ⟨found, ?_, (inner _ _ found).2.1⟩
  rw [found] at index
  exact index.symm

end Testbench.Vhdl
