import Testbench.Config.Basic
import Testbench.Proofs.Text.Bytes
import Testbench.Proofs.Text.Dictionary
import Testbench.Simulation.Environment
import Mathlib.Logic.Function.Basic

/-!
# Environments as maps

An environment is read as a `Valuation` of normal names.  A change of the environment is a change
of its valuation: what is overwritten is set, and what is inserted is offered, which counts for
names without a value only.  Hence the first of several offers for a name counts, and none for a
name that was set before.
-/

namespace Testbench

open Text

/-! ### Normal names -/

theorem toUpper_toUpper (c : Char) :
  c.toUpper.toUpper = c.toUpper
  := by
  have capital : ∀ i : Fin 26,
      (Char.ofNat (97 + i)).toUpper.toUpper = (Char.ofNat (97 + i)).toUpper := by decide
  by_cases lower : 'a'.val ≤ c.val ∧ c.val ≤ 'z'.val
  · have bounds : 97 ≤ c.toNat ∧ c.toNat ≤ 122 := lower
    have same : c = Char.ofNat (97 + (c.toNat - 97)) := by
      rw [Nat.add_sub_cancel' bounds.1, Char.ofNat_toNat]
    rw [same]
    apply capital ⟨c.toNat - 97, by omega⟩
  · have same : c.toUpper = c := dif_neg lower
    rw [same, same]

/-- The normal form of a name is normal. -/
theorem variableName_variableName (name : Text) :
  variableName (variableName name) = variableName name
  := by
  simp only [variableName, Text.upper, List.map_map]
  apply List.map_congr_left
  intro c _
  simp only [Function.comp_apply]
  by_cases dash : c.toUpper = '-'
  · rw [if_pos dash]
    rfl
  · rw [if_neg dash, toUpper_toUpper, if_neg dash]

/-! ### Valuations -/

/-- A valuation gives values to some names. -/
abbrev Valuation := Text → Option Text

namespace Valuation

/-- The valuation with a value for the normal form of a name. -/
def set (m : Valuation) (name value : Text) : Valuation :=
  Function.update m (variableName name) (some value)

/-- The valuation with a value for the normal form of a name, unless this has one before. -/
def offer (m : Valuation) (name value : Text) : Valuation :=
  if m (variableName name) = none then m.set name value else m

theorem set_apply (m : Valuation) (name value k : Text) :
  m.set name value k = if k = variableName name then some value else m k
  := Function.update_apply m (variableName name) (some value) k

theorem offer_apply (m : Valuation) (name value k : Text) :
  m.offer name value k = if k = variableName name then some ((m k).getD value) else m k
  := by
  rw [offer]
  by_cases same : k = variableName name
  · subst same
    rw [if_pos rfl]
    cases h : m (variableName name) with
    | none => rw [if_pos rfl, set_apply, if_pos rfl, Option.getD_none]
    | some v => rw [if_neg (by simp), h, Option.getD_some]
  · rw [if_neg same]
    split_ifs
    · rw [set_apply, if_neg same]
    · rfl

/-- The valuation with several values that are set one after the other. -/
def setAll (m : Valuation) (entries : List (Text × Text)) : Valuation :=
  entries.foldl (fun m x => m.set x.1 x.2) m

section

variable {entries : List (Text × Text)} (normal : ∀ x ∈ entries, variableName x.1 = x.1)
include normal

/-- Names that are not set keep their values. -/
theorem setAll_of_notMem {k : Text} (m : Valuation) (h : k ∉ entries.map (·.1)) :
  m.setAll entries k = m k
  := by
  induction entries generalizing m with
  | nil => rfl
  | cons x entries ih =>
    rw [List.forall_mem_cons] at normal
    rw [List.map_cons, List.mem_cons, not_or] at h
    apply (ih normal.2 (m.set x.1 x.2) h.2).trans
    rw [set_apply, normal.1, if_neg h.1]

/-- Values that are set for different names are all kept. -/
theorem setAll_of_mem (m : Valuation) (distinct : (entries.map (·.1)).Nodup) :
  ∀ x ∈ entries, m.setAll entries x.1 = some x.2
  := by
  induction entries generalizing m with
  | nil => simp
  | cons x entries ih =>
    rw [List.forall_mem_cons] at normal ⊢
    rw [List.map_cons, List.nodup_cons] at distinct
    constructor
    · apply (setAll_of_notMem normal.2 (m.set x.1 x.2) distinct.1).trans
      rw [set_apply, normal.1, if_pos rfl]
    · apply ih normal.2 (m.set x.1 x.2) distinct.2

end

/-- The valuation to which values are offered one after the other. -/
def offerAll (m : Valuation) (entries : List (Text × Text)) : Valuation :=
  entries.foldl (fun m x => m.offer x.1 x.2) m

/-- Of several values that are offered for a name the first one counts, unless the name has one
before. -/
theorem offerAll_apply (m : Valuation) (entries : List (Text × Text)) (k : Text) :
  m.offerAll entries k = (m k).or ((entries.find? fun x => variableName x.1 = k).map (·.2))
  := by
  induction entries generalizing m with
  | nil => simp [offerAll]
  | cons x entries ih =>
    have step : m.offerAll (x :: entries) = (m.offer x.1 x.2).offerAll entries := rfl
    rw [step, ih, offer_apply, List.find?_cons]
    by_cases same : k = variableName x.1
    · cases h : m k <;> simp [same]
    · simp [same, Ne.symm same]

end Valuation

/-! ### Changes -/

/-- The variables that a configuration asks for, in the order of their names. -/
def Config.variables (c : Config) : List (Text × Text) := (c.env.map (·.entries)).getD []

namespace Environment

/-- A change of an environment. -/
inductive Change where
  | insert (name value : Text)
  | overwrite (name value : Text)
  | describe (entity top bench directory : Text)
  | configure (config : Config)

/-- The environment behind a change. -/
def change (e : Environment) : Change → Environment
  | .insert name value => (e.insert name value).2
  | .overwrite name value => e.overwrite name value
  | .describe entity top bench directory => e.describe entity top bench directory
  | .configure config => (e.addAll config.variables).1

/-- The environment behind changes of the empty one. -/
def ofChanges (changes : List Change) : Environment := changes.foldl change empty

/-- The names of the variables that describe a bench. -/
def reserved : List Text := ["ENTITY_NAME", "TBGEN_TOP", "TBGEN_BENCH", "TBGEN_OUT_DIR"]

/-- The variables that describe a bench. -/
def described (entity top bench directory : Text) : List (Text × Text) :=
  [("ENTITY_NAME", entity), ("TBGEN_TOP", top), ("TBGEN_BENCH", bench),
    ("TBGEN_OUT_DIR", directory)]

theorem map_described (entity top bench directory : Text) :
  (described entity top bench directory).map (·.1) = reserved
  := rfl

/-- The names that describe a bench are normal. -/
theorem variableName_described {entity top bench directory : Text} :
  ∀ x ∈ described entity top bench directory, variableName x.1 = x.1
  := by
  have normal : ∀ name ∈ reserved, variableName name = name := by decide
  intro x hx
  apply normal
  rw [← map_described entity top bench directory]
  apply List.mem_map_of_mem hx

end Environment

namespace Valuation

open Environment

/-- The valuation behind a change. -/
def change (m : Valuation) : Change → Valuation
  | .insert name value => m.offer name value
  | .overwrite name value => m.set name value
  | .describe entity top bench directory => m.setAll (described entity top bench directory)
  | .configure config => m.offerAll config.variables

/-- The valuation behind changes of the empty one. -/
def ofChanges (changes : List Change) : Valuation := changes.foldl change fun _ => none

/-- A valuation is normal when the names that have values are. -/
def IsNormal (m : Valuation) : Prop := ∀ k, m k ≠ none → variableName k = k

end Valuation

namespace Environment

/-- The values of the names in an environment. -/
def valuation (e : Environment) : Valuation := e.values.get?

theorem get?_eq (e : Environment) (k : Text) :
  e.get? k = (e.valuation (variableName k)).map (⟨variableName k, ·⟩)
  := rfl

/-- A variable is new when its name has no value. -/
theorem insert_fst (e : Environment) (name value : Text) :
  (e.insert name value).1 = (e.valuation (variableName name)).isNone
  := by
  rw [insert, get?_eq, Option.isNone_map]

theorem valuation_insert (e : Environment) (name value : Text) :
  (e.insert name value).2.valuation = e.valuation.offer name value
  := by
  funext k
  rw [Valuation.offer_apply]
  apply (e.values.get?_add (variableName name) value k).trans
  by_cases same : k = variableName name
  · rw [if_pos same, if_pos same, same]
    rfl
  · rw [if_neg same, if_neg same]
    rfl

theorem valuation_overwrite (e : Environment) (name value : Text) :
  (e.overwrite name value).valuation = e.valuation.set name value
  := by
  funext k
  rw [Valuation.set_apply]
  apply e.values.get?_put

theorem valuation_addAll (e : Environment) (entries : List (Text × Text)) :
  (e.addAll entries).1.valuation = e.valuation.offerAll entries
  := by
  induction entries generalizing e with
  | nil => rfl
  | cons x entries ih =>
    apply (ih (e.insert x.1 x.2).2).trans
    rw [valuation_insert]
    rfl

/-- A change of an environment changes its valuation alike. -/
theorem valuation_change (e : Environment) (c : Change) :
  (e.change c).valuation = e.valuation.change c
  := by
  cases c with
  | insert name value => apply valuation_insert
  | overwrite name value => apply valuation_overwrite
  | describe entity top bench directory =>
    simp only [change, describe, valuation_overwrite]
    rfl
  | configure config => apply valuation_addAll

/-- Changes of the empty environment are changes of the empty valuation. -/
theorem valuation_ofChanges (changes : List Change) :
  (ofChanges changes).valuation = Valuation.ofChanges changes
  := (List.foldl_hom valuation fun e c => (valuation_change e c).symm).symm

end Environment

/-! ### Normal valuations -/

namespace Valuation

open Environment

variable {m : Valuation}

theorem IsNormal.set (h : m.IsNormal) (name value : Text) :
  (m.set name value).IsNormal
  := by
  intro k hk
  rw [set_apply] at hk
  split_ifs at hk with same
  · rw [same, variableName_variableName]
  · apply h k hk

theorem IsNormal.offer (h : m.IsNormal) (name value : Text) :
  (m.offer name value).IsNormal
  := by
  rw [Valuation.offer]
  split_ifs
  · apply h.set
  · apply h

theorem IsNormal.change (h : m.IsNormal) (c : Change) :
  (m.change c).IsNormal
  := by
  cases c with
  | insert name value => apply h.offer
  | overwrite name value => apply h.set
  | describe entity top bench directory =>
    exact List.foldlRecOn _ _ h fun m hm x _ => hm.set x.1 x.2
  | configure config =>
    exact List.foldlRecOn _ _ h fun m hm x _ => hm.offer x.1 x.2

theorem isNormal_ofChanges (changes : List Change) :
  (ofChanges changes).IsNormal
  := by
  apply List.foldlRecOn
  · intro k hk
    contradiction
  · intro m hm c _
    apply hm.change

end Valuation

namespace Environment

/-- The variables of an environment are in the order of the bytes of their names. -/
theorem pairwise_bytes (e : Environment) :
  (e.toList.map fun x => bytes x.name).Pairwise (· < ·)
  := by
  have sorted := e.values.sorted
  rw [List.pairwise_map] at sorted
  rw [toList, List.map_map, List.pairwise_map]
  exact sorted.imp fun before => bytes_lt_bytes before

/-- The names of the variables in an environment have values. -/
theorem valuation_ne_none {e : Environment} {x : Variable} (h : x ∈ e.toList) :
  e.valuation x.name ≠ none
  := by
  rw [toList, List.mem_map] at h
  obtain ⟨entry, mem, rfl⟩ := h
  intro absent
  have apart := List.lookup_eq_none_iff.1 absent entry mem
  simp at apart

/-- An environment that changes is a map of normal names.  It lists its variables in the order of
the bytes of their names, each name in its normal form, and a name in whatever form it is written
has the value that it has in the valuation with the same changes, where values are set in place of
others and offered to names without one only.  The variables that describe a bench are not changed
by a configuration, which gives each other name the first value that it has for it. -/
theorem get?_ofChanges (changes : List Change) :
  ((ofChanges changes).toList.map fun x => bytes x.name).Pairwise (· < ·) ∧
    (∀ x ∈ (ofChanges changes).toList, variableName x.name = x.name) ∧
    (∀ k, (ofChanges changes).get? k =
      (Valuation.ofChanges changes (variableName k)).map (⟨variableName k, ·⟩)) ∧
    (∀ name value, ((ofChanges changes).insert name value).1 =
      (Valuation.ofChanges changes (variableName name)).isNone) ∧
    ∀ entity top bench directory config,
      (∀ x ∈ described entity top bench directory,
        (ofChanges (changes ++ [.describe entity top bench directory, .configure config])).get?
            x.1 = some ⟨x.1, x.2⟩) ∧
      ∀ k, variableName k ∉ reserved →
        (ofChanges [.describe entity top bench directory, .configure config]).get? k =
          (config.variables.find? fun x => variableName x.1 = variableName k).map fun x =>
            ⟨variableName k, x.2⟩
  := by
  refine ⟨pairwise_bytes _, ?_, ?_, ?_, ?_⟩
  · intro x hx
    apply Valuation.isNormal_ofChanges changes
    rw [← valuation_ofChanges]
    apply valuation_ne_none hx
  · intro k
    rw [get?_eq, valuation_ofChanges]
  · intro name value
    rw [insert_fst, valuation_ofChanges]
  · intro entity top bench directory config
    have configured : ∀ changes, Valuation.ofChanges
        (changes ++ [.describe entity top bench directory, .configure config]) =
          ((Valuation.ofChanges changes).setAll
            (described entity top bench directory)).offerAll config.variables := by
      intro changes
      rw [Valuation.ofChanges, List.foldl_append]
      rfl
    constructor
    · intro x hx
      have given := Valuation.setAll_of_mem variableName_described (.ofChanges changes)
        (show reserved.Nodup by decide) x hx
      rw [get?_eq, valuation_ofChanges, configured, Valuation.offerAll_apply,
        variableName_described x hx, given]
      rfl
    · intro k hk
      have kept := Valuation.setAll_of_notMem variableName_described (.ofChanges [])
        (show variableName k ∉ (described entity top bench directory).map (·.1) from hk)
      have alone := configured []
      rw [List.nil_append] at alone
      rw [get?_eq, valuation_ofChanges, alone, Valuation.offerAll_apply, kept]
      rw [Valuation.ofChanges, List.foldl_nil, Option.none_or, Option.map_map]
      rfl

/-- A configuration that gives a name in two forms, and one that describes benches. -/
def clashing : Config :=
  { Config.standard with
    env := some (.ofList [("ghdl-std", "08"), ("GHDL_STD", "93"), ("entity-name", "other")]) }

/-- Of the two forms the first one in the order of the table counts, and what describes the bench
replaces what was inserted and is not replaced. -/
theorem get?_ofChanges_clashing :
  (("ENTITY_NAME", "counter") : Text × Text) ∈ described "counter" "counter_tb" "a" "b" ∧
    variableName "Ghdl-Std" ∉ reserved ∧
    (ofChanges [.insert "entity_Name" "another",
      .describe "counter" "counter_tb" "a" "b", .configure clashing]).get? "ENTITY_NAME" =
        some ⟨"ENTITY_NAME", "counter"⟩ ∧
    (ofChanges [.describe "counter" "counter_tb" "a" "b", .configure clashing]).get? "Ghdl-Std" =
      some ⟨"GHDL_STD", "93"⟩
  := by
  have given : (("ENTITY_NAME", "counter") : Text × Text) ∈
      described "counter" "counter_tb" "a" "b" := by decide
  have other : variableName "Ghdl-Std" ∉ reserved := by decide
  obtain ⟨-, -, -, -, configured⟩ := get?_ofChanges [.insert "entity_Name" "another"]
  obtain ⟨reserved, first⟩ := configured "counter" "counter_tb" "a" "b" clashing
  refine ⟨given, other, reserved _ given, ?_⟩
  apply (first "Ghdl-Std" other).trans
  decide

end Environment

end Testbench
