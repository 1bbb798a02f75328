import Mathlib.Data.List.Forall2

/-!
# Stages

A reader is a chain of stages, each of which gives a value or an error.  The chain gives a
value exactly if every stage does, and a list is read exactly if all of its members are.

Two stages `Agree` when both give values that are related or both give errors that are
related; chains of stages that agree agree.
-/

namespace Testbench

variable {ε ε' ε₁ ε₂ α β γ δ : Type}

/-- Two stages give a value exactly if the first gives one of which the second makes it. -/
theorem bind_eq_ok {x : Except ε α} {f : α → Except ε β} {b : β} :
  x >>= f = .ok b ↔ ∃ a, x = .ok a ∧ f a = .ok b
  := by
  cases x with
  | error e => simp [bind, Except.bind]
  | ok a => simp [bind, Except.bind]

/-- What is done to an error does not concern a value. -/
@[simp]
theorem mapError_eq_ok {x : Except ε α} {f : ε → ε'} {a : α} :
  x.mapError f = .ok a ↔ x = .ok a
  := by
  cases x <;> simp [Except.mapError]

/-- A list is read exactly if each of its members is. -/
theorem mapM_eq_ok {f : α → Except ε β} {xs : List α} {ys : List β} :
  xs.mapM f = .ok ys ↔ List.Forall₂ (fun x y => f x = .ok y) xs ys
  := by
  induction xs generalizing ys with
  | nil => simp [pure, Except.pure, eq_comm]
  | cons x xs ih =>
    simp only [List.mapM_cons, bind_eq_ok, ih, List.forall₂_cons_left_iff]
    constructor
    · rintro ⟨y, hy, ys', hys, same⟩
      use y, ys', hy, hys
      apply (Except.ok.inj same).symm
    · rintro ⟨y, ys', hy, hys, rfl⟩
      use y, hy, ys', hys
      rfl

/-- In lists that are related member by member, what stands in the second is related to a member
of the first. -/
theorem exists_of_mem_of_forall₂ {R : α → β → Prop} {xs : List α} {ys : List β} {y : β}
    (h : List.Forall₂ R xs ys) (hy : y ∈ ys) :
  ∃ x ∈ xs, R x y
  := by
  induction h with
  | nil => simp at hy
  | cons here _ ih =>
    rcases List.mem_cons.1 hy with rfl | hy
    · apply Exists.intro _ ⟨List.mem_cons_self, here⟩
    · obtain ⟨x, hx, related⟩ := ih hy
      use x, List.mem_cons_of_mem _ hx, related

/-- What is read of a list is read of its members. -/
theorem exists_of_mem_of_mapM_eq_ok {f : α → Except ε β} {xs : List α} {ys : List β} {y : β}
    (h : xs.mapM f = .ok ys) (hy : y ∈ ys) :
  ∃ x ∈ xs, f x = .ok y
  := exists_of_mem_of_forall₂ (R := fun x y => f x = .ok y) (mapM_eq_ok.1 h) hy

/-- Each member of a list that is read is read. -/
theorem exists_eq_ok_of_mapM_eq_ok {f : α → Except ε β} {xs : List α} {ys : List β} {x : α}
    (h : xs.mapM f = .ok ys) (hx : x ∈ xs) :
  ∃ y, f x = .ok y
  := by
  obtain ⟨y, -, read⟩ :=
    exists_of_mem_of_forall₂ (R := fun y x => f x = .ok y) (mapM_eq_ok.1 h).flip hx
  use y, read

/-- A list is read in the same way by stages that agree on its members. -/
theorem mapM_congr {f g : α → Except ε β} {xs : List α} (h : ∀ x ∈ xs, f x = g x) :
  xs.mapM f = xs.mapM g
  := by
  induction xs with
  | nil => rfl
  | cons x xs ih =>
    rw [List.mapM_cons, List.mapM_cons, h x List.mem_cons_self,
      ih fun y hy => h y (List.mem_cons_of_mem x hy)]

/-- Lists that are read of the members of a list are put behind one another. -/
theorem map_flatten_mapM_cons (f : α → Except ε (List β)) (x : α) (xs : List α) :
  ((x :: xs).mapM f).map List.flatten =
    f x >>= fun ys => ((xs.mapM f).map List.flatten).map (ys ++ ·)
  := by
  rw [List.mapM_cons]
  cases f x with
  | error e => rfl
  | ok ys => cases xs.mapM f <;> rfl

/-- Members of which nothing is read can be left out. -/
theorem map_flatten_mapM_filter (p : α → Bool) (f : α → Except ε (List β)) (xs : List α) :
  ((xs.filter p).mapM f).map List.flatten =
    (xs.mapM fun x => if p x then f x else .ok []).map List.flatten
  := by
  induction xs with
  | nil => rfl
  | cons x xs ih =>
    rw [map_flatten_mapM_cons, ← ih]
    by_cases hx : p x
    · rw [List.filter_cons_of_pos hx, map_flatten_mapM_cons, if_pos hx]
    · rw [List.filter_cons_of_neg hx, if_neg hx]
      cases (xs.filter p).mapM f <;> rfl

/-! ### Errors -/

/-- The error of a result, if it is one. -/
def errorOf? : Except ε α → Option ε
  | .error e => some e
  | .ok _ => none

theorem errorOf?_eq_some_iff {x : Except ε α} {e : ε} :
  errorOf? x = some e ↔ x = .error e
  := by
  cases x <;> simp [errorOf?]

theorem errorOf?_eq_none_iff {x : Except ε α} :
  errorOf? x = none ↔ ∃ a, x = .ok a
  := by
  cases x <;> simp [errorOf?]

/-- The error of a stage comes before those of what follows it. -/
theorem errorOf?_bind {x : Except ε α} {f : α → Except ε β} {later : Option ε}
    (h : ∀ a, x = .ok a → errorOf? (f a) = later) :
  errorOf? (x >>= f) = (errorOf? x).or later
  := by
  cases x with
  | error e => rfl
  | ok a => exact h a rfl

/-- There is no error if no stage has one. -/
theorem errorOf?_bind_eq_none {x : Except ε α} {f : α → Except ε β} (h : errorOf? x = none)
    (hf : ∀ a, errorOf? (f a) = none) :
  errorOf? (x >>= f) = none
  := by
  rw [errorOf?_bind fun a _ => hf a, h, Option.or_none]

theorem errorOf?_bind_pure (x : Except ε α) (f : α → β) :
  errorOf? (x >>= fun a => pure (f a)) = errorOf? x
  := by
  cases x <;> rfl

/-- The error of a list is that of the first of its members that has one. -/
theorem errorOf?_mapM (f : α → Except ε β) (xs : List α) :
  errorOf? (xs.mapM f) = xs.findSome? fun x => errorOf? (f x)
  := by
  induction xs with
  | nil => rfl
  | cons x xs ih =>
    have later : ∀ y, errorOf? (do return y :: (← xs.mapM f)) =
        xs.findSome? fun x => errorOf? (f x) := by
      intro y
      rw [errorOf?_bind_pure, ih]
    rw [List.mapM_cons, errorOf?_bind fun y _ => later y, List.findSome?_cons]
    cases errorOf? (f x) <;> rfl

/-! ### Agreement -/

/-- Two results agree when both are values related by `R` or both are errors related by
`E`. -/
inductive Agree (E : ε → ε' → Prop) (R : α → β → Prop) : Except ε α → Except ε' β → Prop where
  | error {e : ε} {e' : ε'} (h : E e e') : Agree E R (.error e) (.error e')
  | ok {a : α} {b : β} (h : R a b) : Agree E R (.ok a) (.ok b)

namespace Agree

variable {E : ε → ε' → Prop} {R : α → β → Prop} {S : γ → δ → Prop}

/-- A result agrees with itself. -/
theorem refl (x : Except ε α) :
  Agree Eq Eq x x
  := by
  cases x with
  | error e => apply Agree.error rfl
  | ok a => apply Agree.ok rfl

/-- What follows stages that agree agrees if it does so on related values. -/
theorem bind {x : Except ε α} {y : Except ε' β} {f : α → Except ε γ} {g : β → Except ε' δ}
    (h : Agree E R x y) (hf : ∀ a b, R a b → Agree E S (f a) (g b)) :
  Agree E S (x >>= f) (y >>= g)
  := by
  cases h with
  | error h => apply Agree.error h
  | ok h => apply hf _ _ h

theorem mapError {E' : ε₁ → ε₂ → Prop} {x : Except ε α} {y : Except ε' β} {f : ε → ε₁}
    {g : ε' → ε₂} (h : Agree E R x y) (hf : ∀ e e', E e e' → E' (f e) (g e')) :
  Agree E' R (x.mapError f) (y.mapError g)
  := by
  cases h with
  | error h => apply Agree.error (hf _ _ h)
  | ok h => apply Agree.ok h

theorem mono {R' : α → β → Prop} {x : Except ε α} {y : Except ε' β} (h : Agree E R x y)
    (hR : ∀ a b, R a b → R' a b) :
  Agree E R' x y
  := by
  cases h with
  | error h => apply Agree.error h
  | ok h => apply Agree.ok (hR _ _ h)

theorem map {x : Except ε α} {y : Except ε' β} {f : α → γ} {g : β → δ} (h : Agree E R x y)
    (hf : ∀ a b, R a b → S (f a) (g b)) :
  Agree E S (x.map f) (y.map g)
  := by
  cases h with
  | error h => apply Agree.error h
  | ok h => apply Agree.ok (hf _ _ h)

/-- Two stages agree that agree with a third. -/
theorem join {E' : ε → ε₁ → Prop} {E'' : ε' → ε₁ → Prop} {R' : α → γ → Prop}
    {R'' : β → γ → Prop} {x : Except ε α} {y : Except ε' β} {z : Except ε₁ γ}
    (h : Agree E R x y) (h' : Agree E' R' x z) (hE : ∀ e a b, E e a → E' e b → E'' a b)
    (hR : ∀ c a b, R c a → R' c b → R'' a b) :
  Agree E'' R'' y z
  := by
  cases h with
  | error h =>
    cases h' with
    | error h' => apply Agree.error (hE _ _ _ h h')
  | ok h =>
    cases h' with
    | ok h' => apply Agree.ok (hR _ _ _ h h')

/-- The members of a list are read in agreement if each of them is. -/
theorem mapM {f : γ → Except ε α} {g : γ → Except ε' β} {xs : List γ}
    (hf : ∀ x ∈ xs, Agree E R (f x) (g x)) :
  Agree E (List.Forall₂ R) (xs.mapM f) (xs.mapM g)
  := by
  induction xs with
  | nil => exact Agree.ok .nil
  | cons x xs ih =>
    rw [List.mapM_cons, List.mapM_cons]
    apply bind (hf x List.mem_cons_self)
    intro a b related
    apply bind (ih fun y hy => hf y (List.mem_cons_of_mem _ hy))
    intro as bs all
    exact Agree.ok (.cons related all)

/-- Images of the members of a list are read in agreement with the members, up to what `p` and
`q` make of the results. -/
theorem mapM_image {η : Type} {k : γ → δ} {p : α → η} {q : β → η} {f : δ → Except ε α}
    {g : γ → Except ε' β} (hf : ∀ x, Agree E (fun a b => p a = q b) (f (k x)) (g x))
    (xs : List γ) :
  Agree E (fun as bs => as.map p = bs.map q) ((xs.map k).mapM f) (xs.mapM g)
  := by
  induction xs with
  | nil => exact Agree.ok rfl
  | cons x xs ih =>
    rw [List.map_cons, List.mapM_cons, List.mapM_cons]
    apply bind (hf x)
    intro a b same
    apply bind ih
    intro as bs sames
    exact Agree.ok (congrArg₂ List.cons same sames)

/-- Images of the members of a list are read in agreement with the members, up to an image of
the results. -/
theorem mapM_map {k : γ → δ} {h : β → α} {f : δ → Except ε α} {g : γ → Except ε' β}
    (hf : ∀ x, Agree E (fun a b => a = h b) (f (k x)) (g x)) (xs : List γ) :
  Agree E (fun as bs => as = bs.map h) ((xs.map k).mapM f) (xs.mapM g)
  := by
  apply (mapM_image (p := id) hf xs).mono
  intro as bs same
  rwa [List.map_id] at same

end Agree

end Testbench
