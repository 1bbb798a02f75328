import Testbench.Proofs.Layout.Line

/-!
# Clauses in normal form

The clause that declares a list of items is laid out over several lines.  In its normal form
it stands on one line, with a single space for each run of white space, and its members are
the items with at most one space before their colons.  The normal form is read as the list of
these members.
-/

namespace Testbench.Layout

open Vhdl Nesting

variable {items : List Item} {i : Item} {gap w keyword : Text}

/-- A text writes an item when it is a member of an interface list for the item, with blanks
before its colon. -/
def Item.Writes (i : Item) (t : Text) : Prop := ∃ gap, (∀ c ∈ gap, isBlank c) ∧ t = i.line gap

theorem isSeparator_of_mem_spaces {n : Nat} {c : Char} (h : c ∈ Text.spaces n) :
  isSeparator c
  := by
  rw [Text.eq_space_of_mem_spaces h]
  rfl

/-- Behind white space an item is written with one space before it and at most one before its
colon. -/
theorem Item.IsKept.squeezes_line (hi : i.IsKept) (hgap : ∀ c ∈ gap, isSeparator c)
    (hw : ∀ c ∈ w, isSeparator c) (ne : w ≠ []) :
  ∃ t, i.Writes t ∧ Squeezes (w ++ i.line gap) (' ' :: t)
  := by
  have name := hi.name.solid.squeezes_append hw ne
  have colon : Solid (':' :: ' ' :: i.indication) :=
    Solid.spaced (s := [':']) (by decide) hi.indication.solid
  cases gap with
  | nil =>
    use i.line [], ⟨[], by simp, rfl⟩
    have := name.append colon.squeezes (by simp)
    simpa [line] using this
  | cons c gap =>
    use i.line [' '], ⟨[' '], by decide, rfl⟩
    have first : c ≠ '-' ∧ c ≠ '*' := by
      constructor
      · rintro rfl
        exact absurd (hgap '-' List.mem_cons_self) (by decide)
      · rintro rfl
        exact absurd (hgap '*' List.mem_cons_self) (by decide)
    have := name.append (colon.squeezes_append hgap (by simp)) (by simpa using first)
    simpa [line] using this

/-- The members of a clause on lines of their own are written behind single spaces. -/
theorem squeezes_join (style : Style) (depth column : Nat) (hi : ∀ i ∈ items, i.IsKept)
    (ne : items ≠ []) :
  ∃ ts, List.Forall₂ Item.Writes items ts ∧
    Squeezes ('\n' :: Text.join ";\n"
        (items.map fun i => style.indent depth ++ i.interfaceLine style column))
      (' ' :: Text.join "; " ts)
  := by
  induction items with
  | nil => contradiction
  | cons i items ih =>
    have indented : ∀ c ∈ '\n' :: style.indent depth, isSeparator c := by
      intro c hc
      rcases List.mem_cons.1 hc with rfl | hc
      · rfl
      · apply isSeparator_of_mem_spaces hc
    obtain ⟨t, writes, squeezes⟩ : ∃ t, i.Writes t ∧
        Squeezes ('\n' :: style.indent depth ++ i.interfaceLine style column) (' ' :: t) := by
      rw [Item.interfaceLine_eq]
      apply (hi i List.mem_cons_self).squeezes_line _ indented (by simp)
      intro c
      apply isSeparator_of_mem_spaces
    cases items with
    | nil =>
      use [t], List.Forall₂.cons writes List.Forall₂.nil
      simpa [Text.join] using squeezes
    | cons i' items =>
      obtain ⟨ts, all, further⟩ := ih (fun i hi' => hi i (List.mem_cons_of_mem _ hi')) (by simp)
      use t :: ts, List.Forall₂.cons writes all
      have semicolon : Squeezes [';'] [';'] := Solid.squeezes (by decide)
      have := squeezes.append (semicolon.append further (by simp)) (by simp)
      obtain ⟨t', ts, rfl⟩ : ∃ t' ts', ts = t' :: ts' := by
        cases all with
        | cons _ _ => exact ⟨_, _, rfl⟩
      simpa [Text.join, List.intercalate_cons_cons] using this

/-- A clause is written on one line, as the clause around its members. -/
theorem squeezes_interfacePart (style : Style) (depth : Nat) (hk : IsWord keyword)
    (hi : ∀ i ∈ items, i.IsKept) (ne : items ≠ []) :
  ∃ ts, List.Forall₂ Item.Writes items ts ∧
    Squeezes ('\n' :: interfacePart items keyword style depth)
      (' ' :: Declaration.clauseText keyword (Text.join "; " ts))
  := by
  obtain ⟨ts, writes, members⟩ := squeezes_join style (depth + 1) (longestName items) hi ne
  use ts, writes
  have indented : ∀ c ∈ '\n' :: style.indent depth, isSeparator c := by
    intro c hc
    rcases List.mem_cons.1 hc with rfl | hc
    · rfl
    · apply isSeparator_of_mem_spaces hc
  have opening : Squeezes ('\n' :: style.indent depth ++ (keyword ++ [' ', '(']))
      (' ' :: (keyword ++ [' ', '('])) :=
    (hk.solid.spaced (t := ['(']) (by decide)).squeezes_append indented (by simp)
  have closing : Squeezes ('\n' :: style.indent depth ++ [')', ';']) [' ', ')', ';'] :=
    Solid.squeezes_append (by decide) indented (by simp)
  have := opening.append (members.append closing (by simp)) (by simp)
  simpa [interfacePart, enclosed, Declaration.clauseText, Function.comp_def] using this

/-- Texts that write items which are kept are members of a list of declarations. -/
theorem isMember_of_writes {ts : List Text} (hi : ∀ i ∈ items, i.IsKept)
    (h : List.Forall₂ Item.Writes items ts) :
  ∀ t ∈ ts, Declaration.IsMember t
  := by
  induction h with
  | nil => simp
  | cons writes _ ih =>
    intro t ht
    obtain ⟨gap, hgap, eq⟩ := writes
    rcases List.mem_cons.1 ht with rfl | ht
    · rw [eq]
      apply (hi _ List.mem_cons_self).isMember hgap
    · apply ih (fun i hi' => hi i (List.mem_cons_of_mem _ hi')) t ht

end Testbench.Layout

/-! ### Reading clauses again -/

namespace Testbench.Vhdl

open Layout

variable {body keyword : Text} {ts : List Text}

/-- What is read again from its member of a list is read again from the list. -/
theorem mapM_list_join {ε α : Type} {read : Text → Except ε (List α)} {item : α → Item}
    {xs : List α} (hx : ∀ x ∈ xs, (item x).IsKept)
    (again : ∀ x ∈ xs, ∀ t, (item x).Writes t → read t = .ok [x])
    (writes : List.Forall₂ Item.Writes (xs.map item) ts) :
  (Declaration.list (Text.join "; " ts)).mapM read = .ok (xs.map ([·]))
  := by
  have kept : ∀ i ∈ xs.map item, i.IsKept := by
    intro i hi
    obtain ⟨x, mem, rfl⟩ := List.mem_map.1 hi
    apply hx x mem
  rw [Declaration.list_join_of_isMember (isMember_of_writes kept writes), mapM_eq_ok,
    List.forall₂_map_right_iff]
  rw [List.forall₂_map_left_iff] at writes
  clear hx kept
  induction writes with
  | nil => apply List.Forall₂.nil
  | cons here _ ih =>
    apply List.Forall₂.cons
    · apply again _ List.mem_cons_self _ here
    · apply ih fun x mem => again x (List.mem_cons_of_mem _ mem)

/-- What is read again from its member of a list is read again from a clause with this list. -/
theorem readClause_eq_ok {α : Type} {malformed : Declaration.Fault → Error}
    {read : Text → Except Error (List α)} {item : α → Item} {xs : List α}
    (hc : Declaration.clause? keyword body =
      .ok (if ts = [] then none else some (Text.join "; " ts)))
    (hx : ∀ x ∈ xs, (item x).IsKept)
    (again : ∀ x ∈ xs, ∀ t, (item x).Writes t → read t = .ok [x])
    (writes : List.Forall₂ Item.Writes (xs.map item) ts) :
  Declaration.readClause keyword malformed read body = .ok xs
  := by
  by_cases empty : ts = []
  · rw [empty, List.forall₂_nil_right_iff, List.map_eq_nil_iff] at writes
    rw [if_pos empty] at hc
    apply bind_eq_ok.2 ⟨_, mapError_eq_ok.2 hc, ?_⟩
    rw [writes]
    rfl
  · rw [if_neg empty] at hc
    apply bind_eq_ok.2 ⟨_, mapError_eq_ok.2 hc, ?_⟩
    apply bind_eq_ok.2 ⟨_, mapM_list_join hx again writes, ?_⟩
    simp [pure, Except.pure, ← List.flatMap_def]

/-- Generics that are read can be read again from the clause that declares them. -/
theorem Generic.ofBody_eq_ok {generics : List Generic}
    (hc : Declaration.clause? "generic" body =
      .ok (if ts = [] then none else some (Text.join "; " ts)))
    (writes : List.Forall₂ Item.Writes (generics.map Item.ofGeneric) ts)
    (hg : ∀ g ∈ generics, g.IsRead) (other : ∀ g ∈ generics, ¬g.name.text.sameWord "constant") :
  ofBody body = .ok generics
  := by
  rw [ofBody_eq_readClause]
  apply readClause_eq_ok hc (fun g mem => Item.isKept_ofGeneric (hg g mem)) _ writes
  rintro g mem t ⟨gap, hgap, rfl⟩
  apply ofDeclaration?_line (hg g mem) hgap (other g mem)

/-- Ports that are read can be read again from the clause that declares them. -/
theorem Port.ofBody_eq_ok {ports : List Port}
    (hc : Declaration.clause? "port" body =
      .ok (if ts = [] then none else some (Text.join "; " ts)))
    (writes : List.Forall₂ Item.Writes (ports.map Item.ofPort) ts)
    (hp : ∀ p ∈ ports, p.IsRead) (other : ∀ p ∈ ports, ¬p.name.text.sameWord "signal") :
  ofBody body = .ok ports
  := by
  rw [ofBody_eq_readClause]
  apply readClause_eq_ok hc (fun p mem => Item.isKept_ofPort (hp p mem)) _ writes
  rintro p mem t ⟨gap, hgap, rfl⟩
  apply ofDeclaration_line (hp p mem) hgap (other p mem)

end Testbench.Vhdl
