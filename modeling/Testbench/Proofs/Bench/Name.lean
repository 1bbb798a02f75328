import Testbench.Bench.Name
import Testbench.Proofs.Case.Text
import Mathlib.Data.List.Perm.Subperm
import Mathlib.Data.List.Nodup
import Mathlib.Order.Bounds.Basic

/-!
# Fresh names are fresh

The candidates for a name are different up to case, and there is one more of them than there are
names in an entity, so that one of them is free.  Candidates for bases that are no candidates of
each other are different as well.  A search that tries one candidate after another and knows no
bound, `Finds`, therefore ends, and with the same name.
-/

namespace Testbench.Bench

open Text Vhdl

variable {e : Entity} {base base' name : Text} {i j : Nat}

/-! ### Candidates -/

theorem ofNat_injective {m n : Nat} (h : ofNat m = ofNat n) :
  m = n
  := by
  have value : ∀ n, Nat.ofDigitChars 10 (ofNat n) 0 = n :=
    fun n => Nat.ofDigitChars_toDigits (by decide) (by decide)
  rw [← value m, h, value n]

theorem lower_candidate_zero (base : Text) :
  lower (candidate base 0) = lower base
  := rfl

theorem lower_candidate_succ (base : Text) (i : Nat) :
  lower (candidate base (i + 1)) = lower base ++ '_' :: ofNat (i + 1)
  := by
  have digits : lower (ofNat (i + 1)) = ofNat (i + 1) :=
    lower_of_isDigit fun c hc => isDigit_of_mem_ofNat hc
  rw [candidate, lower_append, lower_append, digits, List.append_assoc]
  rfl

/-- The candidates for a name are different up to case. -/
theorem lower_candidate_injective (h : lower (candidate base i) = lower (candidate base j)) :
  i = j
  := by
  cases i with
  | zero =>
    cases j with
    | zero => rfl
    | succ j => simp [lower_candidate_zero, lower_candidate_succ] at h
  | succ i =>
    cases j with
    | zero => simp [lower_candidate_zero, lower_candidate_succ] at h
    | succ j =>
      rw [lower_candidate_succ, lower_candidate_succ, List.append_cancel_left_eq] at h
      apply ofNat_injective (List.cons.inj h).2

/-- The last underline of a text tells its parts when none follows it. -/
theorem append_underline_inj {s s' t t' : Text} (ht : '_' ∉ t) (ht' : '_' ∉ t')
    (h : s ++ '_' :: t = s' ++ '_' :: t') :
  s = s' ∧ t = t'
  := by
  have reversed := congrArg List.reverse h
  simp only [List.reverse_append, List.reverse_cons, List.append_assoc] at reversed
  have front : ∀ {t r : Text}, '_' ∉ t →
      (t.reverse ++ (['_'] ++ r)).takeWhile (· != '_') = t.reverse := by
    intro t r ht
    rw [List.takeWhile_append_of_pos]
    · simp
    · intro c hc
      rw [bne_iff_ne]
      rintro rfl
      apply ht (List.mem_reverse.1 hc)
  obtain rfl : t = t' := by
    rw [← List.reverse_inj, ← front ht, reversed, front ht']
  use List.append_cancel_right h

theorem underline_not_mem_ofNat (n : Nat) :
  '_' ∉ ofNat n
  := by
  intro mem
  apply absurd (isDigit_of_mem_ofNat mem) (by decide)

/-- Candidates for two bases are the same word only if one of the bases is a candidate for the
other, up to case. -/
theorem exists_sameWord_candidate (h : (candidate base i).sameWord (candidate base' j)) :
  (∃ k, base.sameWord (candidate base' k)) ∨ ∃ k, base'.sameWord (candidate base k)
  := by
  rw [sameWord_iff] at h
  cases i with
  | zero =>
    left
    use j, sameWord_iff.2 h
  | succ i =>
    cases j with
    | zero =>
      right
      use i + 1, sameWord_iff.2 h.symm
    | succ j =>
      rw [lower_candidate_succ, lower_candidate_succ] at h
      left
      use 0, sameWord_iff.2
        (append_underline_inj (underline_not_mem_ofNat _) (underline_not_mem_ofNat _) h).1

/-! ### Fresh names -/

/-- A name is taken when it is a name of the entity up to case. -/
theorem isTaken_iff :
  e.isTaken name ↔ lower name ∈ (e.interfaceNames ++ [e.name]).map Identifier.key
  := by
  simp only [Entity.isTaken, List.any_eq_true, sameWord_iff, List.mem_map]
  rfl

/-- One of the candidates is free. -/
theorem exists_free_candidate (e : Entity) (base : Text) :
  ∃ i ≤ nameCount e, ¬e.isTaken (candidate base i)
  := by
  by_contra! taken
  have distinct : ((List.range (nameCount e + 1)).map fun i => lower (candidate base i)).Nodup := by
    apply List.Nodup.map _ List.nodup_range
    intro i j h
    apply lower_candidate_injective h
  have names : ((List.range (nameCount e + 1)).map fun i => lower (candidate base i)) ⊆
      (e.interfaceNames ++ [e.name]).map Identifier.key := by
    intro name mem
    obtain ⟨i, hi, rfl⟩ := List.mem_map.1 mem
    apply isTaken_iff.1 (taken i _)
    apply Nat.le_of_lt_succ (List.mem_range.1 hi)
  have count := (List.subperm_of_subset distinct names).length_le
  simp only [nameCount, List.length_map, List.length_range, List.length_append,
    List.length_singleton] at count
  omega

/-- A fresh name is the first free candidate. -/
theorem freshName_spec (e : Entity) (base : Text) :
  ∃ i, freshName e base = candidate base i ∧ ¬e.isTaken (candidate base i) ∧
    ∀ j < i, e.isTaken (candidate base j)
  := by
  rw [freshName, List.find?_map]
  cases found : (List.range (nameCount e + 1)).find? ((!e.isTaken ·) ∘ candidate base) with
  | none =>
    obtain ⟨i, hi, free⟩ := exists_free_candidate e base
    have taken := List.find?_eq_none.1 found i (List.mem_range.2 (Nat.lt_succ_of_le hi))
    simp [free] at taken
  | some i =>
    rw [List.find?_range_eq_some] at found
    obtain ⟨free, -, taken⟩ := found
    use i, rfl
    constructor
    · simpa using free
    · intro j hj
      simpa using taken j hj

/-- A fresh name is no name of the entity. -/
theorem isTaken_freshName (e : Entity) (base : Text) :
  ¬e.isTaken (freshName e base)
  := by
  obtain ⟨i, eq, free, -⟩ := freshName_spec e base
  rwa [eq]

/-- No word is the same as a fresh name and as a name of the entity. -/
theorem not_sameWord_of_mem_interfaceNames {n : Identifier} (hn : n ∈ e.interfaceNames ++ [e.name])
    (base : Text) :
  ¬n.text.sameWord (freshName e base)
  := by
  intro same
  apply isTaken_freshName e base
  apply List.any_eq_true.2 ⟨n, hn, same⟩

/-- Fresh names for bases that are no candidates of each other are different up to case. -/
theorem not_sameWord_freshName (e : Entity) (h : ∀ k, ¬base.sameWord (candidate base' k))
    (h' : ∀ k, ¬base'.sameWord (candidate base k)) :
  ¬(freshName e base).sameWord (freshName e base')
  := by
  obtain ⟨i, eq, -⟩ := freshName_spec e base
  obtain ⟨j, eq', -⟩ := freshName_spec e base'
  rw [eq, eq']
  intro same
  rcases exists_sameWord_candidate same with ⟨k, same⟩ | ⟨k, same⟩
  · apply h k same
  · apply h' k same

/-! ### Searching without a bound -/

/-- A search that tries the candidates from a number on, one after another, ends with a name. -/
inductive Finds (e : Entity) (base : Text) : Nat → Text → Prop
  | free {i : Nat} : ¬e.isTaken (candidate base i) → Finds e base i (candidate base i)
  | taken {i : Nat} {name : Text} : e.isTaken (candidate base i) → Finds e base (i + 1) name →
      Finds e base i name

/-- A search ends exactly with the first free candidate from its number on. -/
theorem finds_iff :
  Finds e base i name ↔
    ∃ j, i ≤ j ∧ name = candidate base j ∧ ¬e.isTaken (candidate base j) ∧
      ∀ k, i ≤ k → k < j → e.isTaken (candidate base k)
  := by
  constructor
  · intro h
    induction h with
    | @free i free => exact ⟨i, le_rfl, rfl, free, fun k low high => absurd high low.not_gt⟩
    | @taken i name taken _ ih =>
      obtain ⟨j, le, eq, free, before⟩ := ih
      use j, by omega, eq, free
      intro k low high
      rcases low.eq_or_lt with rfl | lt
      · exact taken
      · exact before k lt high
  · rintro ⟨j, le, rfl, free, before⟩
    induction le using Nat.decreasingInduction with
    | self => exact .free free
    | of_succ i lt ih =>
      apply Finds.taken (before i le_rfl lt)
      apply ih
      intro k low
      apply before k (Nat.le_of_succ_le low)

/-- A search from the base on ends, with the fresh name and no other. -/
theorem finds_zero_iff :
  Finds e base 0 name ↔ name = freshName e base
  := by
  obtain ⟨i, eq, free, before⟩ := freshName_spec e base
  rw [finds_iff]
  constructor
  · rintro ⟨j, -, rfl, free', before'⟩
    rcases Nat.lt_trichotomy i j with lt | rfl | lt
    · exact absurd (before' i i.zero_le lt) free
    · exact eq.symm
    · exact absurd (before j lt) free'
  · rintro rfl
    use i, i.zero_le, eq, free
    intro k _ lt
    apply before k lt

/-- When the base is taken, the fresh name has the least number that makes a free name, and there
are not more numbers to try than names. -/
theorem exists_isLeast_of_isTaken (taken : e.isTaken base) :
  ∃ i, freshName e base = base ++ "_" ++ ofNat i ∧
    IsLeast {k | 1 ≤ k ∧ ¬e.isTaken (base ++ "_" ++ ofNat k)} i ∧ i ≤ nameCount e
  := by
  obtain ⟨i, eq, free, before⟩ := freshName_spec e base
  obtain ⟨j, few, free'⟩ := exists_free_candidate e base
  have le : i ≤ j := by
    by_contra! lt
    apply free' (before j lt)
  cases i with
  | zero => exact absurd taken free
  | succ i =>
    use i + 1, eq
    refine ⟨⟨⟨i.succ_pos, free⟩, ?_⟩, le.trans few⟩
    rintro k ⟨positive, untaken⟩
    by_contra! lt
    obtain ⟨k, rfl⟩ := Nat.exists_eq_add_of_le' positive
    apply untaken (before (k + 1) lt)

/-- A search for a fresh name ends.  It yields the base if this is free, and otherwise the base with
the least number that makes a free name, which is at most the number of names of the entity.  The
name is none of the entity, whatever the case. -/
theorem freshName_isFirstFree (e : Entity) (base : Text) :
  (∀ name, Finds e base 0 name ↔ name = freshName e base) ∧
  (¬e.isTaken base → freshName e base = base) ∧
  (e.isTaken base → ∃ i, freshName e base = base ++ "_" ++ ofNat i ∧
    IsLeast {k | 1 ≤ k ∧ ¬e.isTaken (base ++ "_" ++ ofNat k)} i ∧
    i ≤ e.ports.length + e.generics.length + 1) ∧
  ¬e.name.text.sameWord (freshName e base) ∧
  (∀ p ∈ e.ports, ¬p.name.text.sameWord (freshName e base)) ∧
  ∀ g ∈ e.generics, ¬g.name.text.sameWord (freshName e base)
  := by
  have other {n : Identifier} (hn : n ∈ e.interfaceNames ++ [e.name]) :
      ¬n.text.sameWord (freshName e base) := not_sameWord_of_mem_interfaceNames hn base
  refine ⟨fun _ => finds_zero_iff, ?_, ?_, other (by simp), ?_, ?_⟩
  · intro untaken
    obtain ⟨i, eq, -, before⟩ := freshName_spec e base
    cases i with
    | zero => exact eq
    | succ i => exact absurd (before 0 i.succ_pos) untaken
  · intro taken
    obtain ⟨i, eq, least, few⟩ := exists_isLeast_of_isTaken taken
    use i, eq, least
    simpa [nameCount, Entity.interfaceNames] using few
  · intro p hp
    apply other
    apply List.mem_append_left
    apply List.mem_append_left
    apply List.mem_map_of_mem hp
  · intro g hg
    apply other
    apply List.mem_append_left
    apply List.mem_append_right
    apply List.mem_map_of_mem hg

/-- An entity with a port `tb_done`, a generic `TB_DONE_1` and the name `tb_done_3`. -/
def flagged : Entity where
  name := ⟨"tb_done_3", by decide⟩
  generics := [⟨⟨"TB_DONE_1", by decide⟩, "natural", none⟩]
  ports := [⟨⟨"tb_done", by decide⟩, .input, .stdULogic, none, none, by decide⟩]
  generics_distinct := by decide
  ports_distinct := by decide

/-- The first free number is two. -/
theorem freshName_flagged :
  flagged.isTaken "tb_done" ∧ Finds flagged "tb_done" 0 "tb_done_2" ∧
    freshName flagged "tb_done" = "tb_done_2"
  := by
  have fresh : freshName flagged "tb_done" = "tb_done_2" := by decide
  obtain ⟨ends, -⟩ := freshName_isFirstFree flagged "tb_done"
  exact ⟨by decide, (ends _).2 fresh.symm, fresh⟩

end Testbench.Bench
