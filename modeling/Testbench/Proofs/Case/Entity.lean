import Testbench.Proofs.Case.Bench
import Testbench.Proofs.Vhdl.Verbatim

/-!
# Sources in either case

Two sources that are equal up to case are refused with errors of the same kind, or they declare
entities that are alike: these differ in the case of names, generic types, expressions and
defaults and in nothing else.  The benches of such entities are equal up to case.
-/

namespace Testbench.Vhdl

/-! ### Entities that are alike -/

/-- Bounds are alike when they are the same number or expressions that are equal up to case. -/
inductive Bound.Alike : Bound → Bound → Prop where
  | int (n : Nat) : Alike (.int n) (.int n)
  | expr {s t : Text} (h : s.sameWord t) : Alike (.expr s) (.expr t)

/-- Ranges are alike when they have the same direction and their bounds are alike. -/
structure Range.Alike (r r' : Range) : Prop where
  left : r.left.Alike r'.left
  right : r.right.Alike r'.right
  direction : r.direction = r'.direction

/-- Generics are alike when their names, types and defaults are equal up to case. -/
structure Generic.Alike (g g' : Generic) : Prop where
  name : g.name.text.sameWord g'.name.text
  type : g.type.sameWord g'.type
  default : Option.Rel (fun s t => s.sameWord t) g.default g'.default

/-- Ports are alike when they have the same mode and type, their ranges are alike and their names
and defaults are equal up to case. -/
structure Port.Alike (p p' : Port) : Prop where
  name : p.name.text.sameWord p'.name.text
  mode : p.mode = p'.mode
  type : p.type = p'.type
  range : Option.Rel Range.Alike p.range p'.range
  default : Option.Rel (fun s t => s.sameWord t) p.default p'.default

/-- Entities are alike when their names are equal up to case and their generics and their ports
are alike, one by one. -/
structure Entity.Alike (e e' : Entity) : Prop where
  name : e.name.text.sameWord e'.name.text
  generics : List.Forall₂ Generic.Alike e.generics e'.generics
  ports : List.Forall₂ Port.Alike e.ports e'.ports

/-! ### Entities with the same lower case form -/

/-- Optional parts are related one to one when equal images are. -/
theorem optionRel_of_map_eq {α β : Type} {f : α → β} {R : α → α → Prop}
    (hR : ∀ a b, f a = f b → R a b) {x y : Option α} (h : x.map f = y.map f) :
  Option.Rel R x y
  := by
  cases x with
  | none =>
    cases y with
    | none => apply Option.Rel.none
    | some b => contradiction
  | some a =>
    cases y with
    | none => contradiction
    | some b => apply Option.Rel.some (hR a b (Option.some.inj h))

/-- Lists are related member by member when equal images are. -/
theorem forall₂_of_map_eq {α β : Type} {f : α → β} {R : α → α → Prop}
    (hR : ∀ a b, f a = f b → R a b) {xs ys : List α} (h : xs.map f = ys.map f) :
  List.Forall₂ R xs ys
  := by
  rw [← List.forall₂_eq_eq_eq, List.forall₂_map_left_iff, List.forall₂_map_right_iff] at h
  apply h.imp hR

theorem sameWord_of_lower_eq (s t : Text) (h : s.lower = t.lower) :
  s.sameWord t
  := Text.sameWord_iff.2 h

theorem Bound.alike_of_lower_eq {b b' : Bound} (h : b.lower = b'.lower) :
  b.Alike b'
  := by
  cases b with
  | int n =>
    cases b' with
    | int n' =>
      obtain rfl := Bound.int.inj h
      apply Alike.int
    | expr t => contradiction
  | expr s =>
    cases b' with
    | int n => contradiction
    | expr t => apply Alike.expr (sameWord_of_lower_eq s t (Bound.expr.inj h))

theorem Range.alike_of_lower_eq (r r' : Range) (h : r.lower = r'.lower) :
  r.Alike r'
  := by
  obtain ⟨left, right, direction⟩ := Range.mk.inj h
  use Bound.alike_of_lower_eq left, Bound.alike_of_lower_eq right, direction

theorem Generic.alike_of_lower_eq (g g' : Generic) (h : g.lower = g'.lower) :
  g.Alike g'
  := by
  obtain ⟨name, type, default⟩ := Generic.mk.inj h
  constructor
  · apply sameWord_of_lower_eq _ _ (congrArg Identifier.text name)
  · apply sameWord_of_lower_eq _ _ type
  · apply optionRel_of_map_eq sameWord_of_lower_eq default

theorem Port.alike_of_lower_eq (p p' : Port) (h : p.lower = p'.lower) :
  p.Alike p'
  := by
  obtain ⟨name, mode, type, range, default⟩ := Port.mk.inj h
  constructor
  · apply sameWord_of_lower_eq _ _ (congrArg Identifier.text name)
  · apply mode
  · apply type
  · apply optionRel_of_map_eq Range.alike_of_lower_eq range
  · apply optionRel_of_map_eq sameWord_of_lower_eq default

/-- Entities with the same lower case form are alike. -/
theorem Entity.alike_of_lower_eq {e e' : Entity} (h : e.lower = e'.lower) :
  e.Alike e'
  := by
  obtain ⟨name, generics, ports⟩ := Entity.mk.inj h
  constructor
  · apply sameWord_of_lower_eq _ _ (congrArg Identifier.text name)
  · apply forall₂_of_map_eq Generic.alike_of_lower_eq generics
  · apply forall₂_of_map_eq Port.alike_of_lower_eq ports

end Testbench.Vhdl

namespace Testbench.Bench

open Vhdl

/-- Entities with the same lower case form have benches that are equal up to case, or none. -/
theorem generate_of_lower_eq {e e' : Entity} (h : e.lower = e'.lower) (config : Config) :
  Agree (fun _ _ => True) (fun s t => s.sameWord t) (generate e config) (generate e' config)
  := by
  have left := generate_lower e config
  have right := generate_lower e' config
  rw [← h] at right
  apply left.join right
  · intros
    trivial
  · intro c s t hs ht
    apply sameWord_of_lower_eq _ _ (hs.symm.trans ht)

/-- Sources that are equal up to case are refused with errors of the same kind, or declare
entities that are alike and that have, under every configuration, benches that are equal up to
case or no bench. -/
theorem generate_ofSource_of_sameWord {s t : Text} (h : s.sameWord t) :
  Agree Vhdl.Error.Alike
    (fun e e' => e.Alike e' ∧ ∀ config : Config, Agree (fun _ _ => True)
      (fun bench bench' => bench.sameWord bench') (generate e config) (generate e' config))
    (Entity.ofSource s) (Entity.ofSource t)
  := by
  have left := Entity.ofSource_lower s
  have right := Entity.ofSource_lower t
  rw [← Text.sameWord_iff.1 h] at right
  apply left.join right
  · intro c a b ha hb
    apply ha.symm.trans hb
  · rintro _ e e' rfl same
    use Entity.alike_of_lower_eq same
    intro config
    apply generate_of_lower_eq same

/-- The source of the shifter in capital letters declares an entity like it. -/
theorem generate_ofSource_shifter :
  shifterSource.sameWord shifterSource.upper ∧
    ∃ e, Entity.ofSource shifterSource.upper = .ok e ∧ shifter.Alike e ∧
      ∀ config : Config, Agree (fun _ _ => True) (fun bench bench' => bench.sameWord bench')
        (generate shifter config) (generate e config)
  := by
  have case : shifterSource.sameWord shifterSource.upper := by decide +kernel
  have agree := generate_ofSource_of_sameWord case
  rw [ofSource_shifter] at agree
  use case
  generalize Entity.ofSource shifterSource.upper = read at agree ⊢
  cases agree with
  | ok alike => exact ⟨_, rfl, alike⟩

end Testbench.Bench
