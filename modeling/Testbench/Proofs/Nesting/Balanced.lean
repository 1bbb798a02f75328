import Testbench.Proofs.Nesting.Place
import Mathlib.Algebra.Group.Nat.Even
import Testbench.Proofs.Text.Trimming

/-!
# Balanced texts

A text is `Balanced` when a reader who starts at the outer level closes no parenthesis
there and is at the outer level in the end.  Balanced texts may be put behind one another
and into parentheses; a text that is split at the outer level has balanced parts; and what
`splitClosing?` finds inside a parenthesis is the balanced text before it.
-/

namespace Testbench.Vhdl

open Nesting

variable {p : Option Char → Text → Bool} {n : Nesting} {prev : Option Char}
  {s t r a b inside rest : Text} {x c : Char} {k : Nat}

/-- A character is plain when it neither opens nor closes a parenthesis or a string. -/
def IsPlain (c : Char) : Prop := c ≠ '"' ∧ c ≠ '(' ∧ c ≠ ')'

instance : DecidablePred IsPlain := fun _ => inferInstanceAs (Decidable (_ ∧ _))

namespace Nesting

/-- A plain character leaves the nesting as it is. -/
theorem next_of_isPlain (hc : IsPlain c) :
  n.next c = n
  := by
  obtain ⟨quote, opening, closing⟩ := hc
  simp [next, quote, opening, closing]

/-- Plain characters leave the nesting as it is. -/
theorem after_of_isPlain (ht : ∀ c ∈ t, IsPlain c) :
  n.after t = n
  := by
  induction t with
  | nil => rfl
  | cons c t ih =>
    rw [after_cons, next_of_isPlain (ht c List.mem_cons_self)]
    apply ih
    intro d hd
    apply ht d (List.mem_cons_of_mem c hd)

theorem isPlain_of_isBlank (hc : isBlank c) :
  IsPlain c
  := by
  refine ⟨?_, ?_, ?_⟩ <;>
    · rintro rfl
      exact absurd hc (by decide)

theorem isPlain_of_isWordChar (hc : isWordChar c) :
  IsPlain c
  := by
  refine ⟨?_, ?_, ?_⟩ <;>
    · rintro rfl
      exact absurd hc (by decide)

/-- Blanks leave the nesting as it is. -/
theorem after_of_isBlank (ht : ∀ c ∈ t, isBlank c) :
  n.after t = n
  := by
  apply after_of_isPlain
  intro c hc
  apply isPlain_of_isBlank (ht c hc)

/-- Blanks around a text do not matter to the nesting behind it. -/
theorem after_trim :
  n.after t.trim = n.after t
  := by
  obtain ⟨a, b, ha, hb, split⟩ := t.exists_blanks_trim
  conv_rhs => rw [← split]
  rw [after_append, after_append, after_of_isBlank ha, after_of_isBlank hb]

/-! ### Strings -/

theorem even_count_cons (c : Char) (t : Text) (q : Bool) :
  Even ((c :: t).count '"' + q.toNat) ↔ Even (t.count '"' + (q ^^ c == '"').toNat)
  := by
  rw [List.count_cons]
  cases q <;> cases c == '"' <;> simp [Nat.even_add_one]

/-- A string is open behind a text if one is open before it or the text has an odd number of
quotes, but not both. -/
theorem even_count_quotes (n : Nesting) (t : Text) :
  Even (t.count '"' + n.quoted.toNat) ↔ (n.after t).quoted = false
  := by
  induction t generalizing n with
  | nil => cases quoted : n.quoted <;> simp [quoted]
  | cons c t ih =>
    have quoted : (n.next c).quoted = (n.quoted ^^ c == '"') := by
      rw [next]
      split
      · next quote => simp [quote]
      · next other =>
        split
        · simp [beq_eq_false_iff_ne.2 other]
        · split
          · simp [beq_eq_false_iff_ne.2 other]
          · split <;> simp [beq_eq_false_iff_ne.2 other]
    rw [even_count_cons, after_cons, ← ih, quoted]

/-- A reader is at the outer level behind a text exactly if it has an even number of quotes and no
parenthesis is open behind it. -/
theorem after_eq_outer_iff :
  outer.after t = outer ↔ Even (t.count '"') ∧ (outer.after t).depth = 0
  := by
  have closed := even_count_quotes outer t
  rw [← isOuter_iff, isOuter, Bool.and_eq_true, beq_iff_eq, Bool.not_eq_true', ← closed, and_comm]
  rfl

/-! ### Deeper nestings -/

/-- The nesting with `k` further parentheses open. -/
def raise (n : Nesting) (k : Nat) : Nesting := { n with depth := n.depth + k }

theorem not_isOuter_raise (hk : 0 < k) :
  ¬(n.raise k).isOuter
  := by
  simp [isOuter, raise]
  omega

/-- Unless a character closes a parenthesis at the outer level, it acts in the same way
inside further parentheses. -/
theorem next_raise (h : ¬(n.isOuter ∧ c = ')')) :
  (n.raise k).next c = (n.next c).raise k
  := by
  obtain ⟨d, q⟩ := n
  by_cases quote : c = '"'
  · simp [next, raise, quote]
  · cases q with
    | true => simp [next, raise, quote]
    | false =>
      by_cases opening : c = '('
      · simp only [next, raise, opening]
        simp
        omega
      · by_cases closing : c = ')'
        · have deep : d ≠ 0 := by
            rintro rfl
            apply h ⟨rfl, closing⟩
          simp only [next, raise, closing]
          simp
          omega
        · simp [next, raise, quote, opening, closing]

/-- A text that closes no parenthesis at the outer level acts in the same way inside
further parentheses. -/
theorem after_raise (h : n.Lacks ')' t) :
  (n.raise k).after t = (n.after t).raise k
  := by
  induction t generalizing n with
  | nil => rfl
  | cons c t ih =>
    rw [after_cons, next_raise h.1, ih h.2]
    rfl

/-- Inside a further parenthesis nothing stands at the outer level. -/
theorem lacks_raise (hk : 0 < k) (h : n.Lacks ')' t) :
  (n.raise k).Lacks x t
  := by
  induction t generalizing n with
  | nil => trivial
  | cons c t ih =>
    constructor
    · rintro ⟨outer, -⟩
      apply not_isOuter_raise hk outer
    · rw [next_raise h.1]
      apply ih h.2

end Nesting

/-- Inside a further parenthesis no place is at the outer level. -/
theorem misses_raise (hk : 0 < k) (h : n.Lacks ')' t) :
  Misses p (n.raise k) prev t r
  := by
  induction t generalizing n prev with
  | nil => trivial
  | cons c t ih =>
    constructor
    · rintro ⟨outer, -⟩
      apply not_isOuter_raise hk outer
    · rw [next_raise h.1]
      apply ih h.2

/-! ### Balanced texts -/

/-- A text is balanced when no parenthesis is closed at the outer level in it, and it ends
at the outer level. -/
structure Balanced (t : Text) : Prop where
  lacks : outer.Lacks ')' t
  after : outer.after t = outer

instance : DecidablePred Balanced := fun t =>
  decidable_of_iff (outer.Lacks ')' t ∧ outer.after t = outer)
    ⟨fun h => ⟨h.1, h.2⟩, fun h => ⟨h.lacks, h.after⟩⟩

namespace Balanced

theorem nil :
  Balanced []
  := ⟨trivial, rfl⟩

/-- Balanced texts behind one another are balanced. -/
theorem append (hs : Balanced s) (ht : Balanced t) :
  Balanced (s ++ t)
  := by
  constructor
  · rw [lacks_append, hs.after]
    apply And.intro hs.lacks ht.lacks
  · rw [after_append, hs.after, ht.after]

/-- A text of plain characters is balanced. -/
theorem of_isPlain (ht : ∀ c ∈ t, IsPlain c) :
  Balanced t
  := by
  constructor
  · apply lacks_of_not_mem
    intro h
    apply (ht _ h).2.2 rfl
  · apply after_of_isPlain ht

/-- A balanced text in parentheses is balanced. -/
theorem parenthesized (ht : Balanced t) :
  Balanced ('(' :: t ++ [')'])
  := by
  have raised : outer.next '(' = outer.raise 1 := rfl
  constructor
  · rw [List.cons_append, lacks_cons, raised, lacks_append, after_raise ht.lacks, ht.after]
    use by simp, lacks_raise Nat.one_pos ht.lacks
    simp [isOuter, raise, outer]
  · rw [List.cons_append, after_cons, raised, after_append, after_raise ht.lacks, ht.after]
    rfl

/-- A text without quotes is balanced in quotes. -/
theorem quoted (ht : '"' ∉ t) :
  Balanced ('"' :: t ++ ['"'])
  := by
  have inner : (⟨0, true⟩ : Nesting).after t = ⟨0, true⟩ ∧ (⟨0, true⟩ : Nesting).Lacks ')' t := by
    induction t with
    | nil => exact ⟨rfl, trivial⟩
    | cons c t ih =>
      rw [List.mem_cons, not_or] at ht
      have stays : (⟨0, true⟩ : Nesting).next c = ⟨0, true⟩ := by
        simp [next, Ne.symm ht.1]
      rw [after_cons, lacks_cons, stays]
      obtain ⟨ends, lacks⟩ := ih ht.2
      exact ⟨ends, by simp [isOuter], lacks⟩
  have opened : outer.next '"' = ⟨0, true⟩ := rfl
  constructor
  · rw [List.cons_append, lacks_cons, opened, lacks_append]
    exact ⟨by decide, inner.2, by simp⟩
  · rw [List.cons_append, after_cons, opened, after_append, inner.1]
    rfl

/-- Balanced texts in a list are balanced behind one another. -/
theorem flatten {ts : List Text} (h : ∀ t ∈ ts, Balanced t) :
  Balanced ts.flatten
  := by
  induction ts with
  | nil => apply nil
  | cons t ts ih =>
    apply (h t List.mem_cons_self).append
    apply ih fun t ht => h t (List.mem_cons_of_mem _ ht)

/-- Balanced texts in a list are balanced with a balanced separator between them. -/
theorem join {sep : Text} {ts : List Text} (hs : Balanced sep) (h : ∀ t ∈ ts, Balanced t) :
  Balanced (Text.join sep ts)
  := by
  induction ts with
  | nil => apply nil
  | cons t ts ih =>
    have first := h t List.mem_cons_self
    cases ts with
    | nil =>
      rw [Text.join, List.intercalate_singleton]
      apply first
    | cons t' ts =>
      rw [Text.join, List.intercalate_cons_cons]
      apply (first.append hs).append
      apply ih fun t ht => h t (List.mem_cons_of_mem _ ht)

/-- The parts of a balanced text that is split at the outer level are balanced. -/
theorem of_append (h : Balanced (s ++ t)) (hs : outer.after s = outer) :
  Balanced s ∧ Balanced t
  := by
  obtain ⟨lacks, ends⟩ := h
  rw [lacks_append, hs] at lacks
  rw [after_append, hs] at ends
  apply And.intro ⟨lacks.1, hs⟩ ⟨lacks.2, ends⟩

/-- What stands behind plain characters in a balanced text is balanced. -/
theorem of_isPlain_append (h : Balanced (s ++ t)) (hs : ∀ c ∈ s, IsPlain c) :
  Balanced t
  := (h.of_append (after_of_isPlain hs)).2

/-- Inside a parenthesis a balanced text holds no character at the outer level. -/
theorem lacks_raise (h : Balanced t) :
  (outer.raise 1).Lacks x t
  := Nesting.lacks_raise Nat.one_pos h.lacks

/-- A parenthesis around a balanced text misses the properties that the opening
parenthesis does not have. -/
theorem misses_parenthesis (h : Balanced t) (hp : ¬p prev ('(' :: (t ++ ')' :: r))) :
  Misses p outer prev ('(' :: t ++ [')']) r
  := by
  have raised : outer.next '(' = outer.raise 1 := rfl
  rw [List.cons_append, misses_cons, raised, misses_append, after_raise h.lacks, h.after]
  refine ⟨?_, misses_raise Nat.one_pos h.lacks, ?_, trivial⟩
  · rintro ⟨-, found⟩
    apply hp
    simpa using found
  · rintro ⟨outer, -⟩
    apply not_isOuter_raise Nat.one_pos outer

/-- A parenthesis around a balanced text holds only its opening character at the outer
level. -/
theorem lacks_parenthesis (h : Balanced t) (hx : x ≠ '(') :
  outer.Lacks x ('(' :: t ++ [')'])
  := by
  have raised : outer.next '(' = outer.raise 1 := rfl
  rw [List.cons_append, lacks_cons, raised, lacks_append, after_raise h.lacks, h.after]
  refine ⟨?_, h.lacks_raise, ?_, trivial⟩
  · rintro ⟨-, rfl⟩
    contradiction
  · rintro ⟨outer, -⟩
    apply not_isOuter_raise Nat.one_pos outer

end Balanced

/-- The trim of a text holds at the outer level what the text holds there. -/
theorem lacks_trim (hx : ¬isBlank x) :
  outer.Lacks x t.trim ↔ outer.Lacks x t
  := by
  obtain ⟨a, b, ha, hb, split⟩ := t.exists_blanks_trim
  have absent : ∀ s : Text, (∀ c ∈ s, isBlank c) → x ∉ s := fun s hs hxs => hx (hs x hxs)
  conv_rhs => rw [← split]
  rw [lacks_append, lacks_append, after_of_isBlank ha]
  simp [lacks_of_not_mem (absent a ha), lacks_of_not_mem (absent b hb)]

/-- The trim of a balanced text is balanced. -/
theorem Balanced.trim (h : Balanced t) :
  Balanced t.trim
  := by
  constructor
  · apply (lacks_trim (by decide)).2 h.lacks
  · rw [after_trim, h.after]

/-! ### The end of a parenthesis -/

/-- The search for the end of a parenthesis keeps in step with a reader who does not count
this parenthesis: it ends where the reader finds a closing one at the outer level. -/
theorem closeFrom_eq (n : Nesting) (prev : Option Char) (t : Text) :
  closeFrom (n.depth + 1) n.quoted t =
    (splitWhere (fun _ r => r.head? == some ')') n prev t).elim .missing
      fun (inside, rest) => .found inside (rest.drop 1)
  := by
  induction t generalizing n prev with
  | nil => rfl
  | cons c t ih =>
    have goesOn (elsewhere : ¬(n.isOuter ∧ c = ')')) :
        (splitWhere (fun _ r => r.head? == some ')') n prev (c :: t)).elim .missing
            (fun (inside, rest) => .found inside (rest.drop 1)) =
          (closeFrom ((n.next c).depth + 1) (n.next c).quoted t).behind c := by
      rw [splitWhere, if_neg (by simpa using elsewhere), ih (n.next c) (some c)]
      cases splitWhere (fun _ r => r.head? == some ')') (n.next c) (some c) t <;> rfl
    obtain ⟨d, q⟩ := n
    rw [closeFrom]
    cases q with
    | true =>
      rw [goesOn (by simp [isOuter])]
      by_cases quote : c = '"'
      · simp [next, quote]
      · have stays : (c != '"') = true := bne_iff_ne.2 quote
        simp [next, quote, stays]
    | false =>
      by_cases quote : c = '"'
      · rw [goesOn (by simp [quote])]
        simp [next, quote]
      · by_cases opening : c = '('
        · rw [goesOn (by simp [opening])]
          simp [next, opening]
        · by_cases closing : c = ')'
          · cases d with
            | zero => simp [splitWhere, isOuter, closing]
            | succ d =>
              rw [goesOn (by simp [isOuter])]
              simp [next, closing]
          · rw [goesOn (by simp [closing])]
            simp [next, quote, opening, closing]

theorem splitClosing?_eq (t : Text) :
  splitClosing? t = (splitWhere (fun _ r => r.head? == some ')') outer none t).map
    fun (inside, rest) => (inside, rest.drop 1)
  := by
  have step := closeFrom_eq outer none t
  rw [splitClosing?, show closeFrom 1 false t = _ from step]
  cases splitWhere (fun _ r => r.head? == some ')') outer none t <;> rfl

/-- What `splitClosing?` finds inside a parenthesis is the balanced text up to a closing
parenthesis. -/
theorem splitClosing?_eq_some_iff :
  splitClosing? t = some (inside, rest) ↔ t = inside ++ ')' :: rest ∧ Balanced inside
  := by
  rw [splitClosing?_eq]
  simp only [Option.map_eq_some_iff, Prod.exists, Prod.mk.injEq, splitWhere_eq_some_iff]
  constructor
  · rintro ⟨inside, rest, ⟨rfl, misses, -, outer, found⟩, rfl, rfl⟩
    cases rest with
    | nil => simp at found
    | cons c rest =>
      obtain rfl : c = ')' := by simpa using found
      use rfl, lacks_of_misses misses, isOuter_iff.1 outer
  · rintro ⟨rfl, balanced⟩
    use inside, ')' :: rest
    refine ⟨⟨rfl, ?_, by simp, ?_, by simp⟩, rfl, rfl⟩
    · apply misses_of_lacks _ balanced.lacks
      intro _ s hs
      simpa using hs
    · rw [balanced.after, isOuter_outer]

end Testbench.Vhdl
