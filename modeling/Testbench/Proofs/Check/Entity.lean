import Testbench.Proofs.Check.Layout
import Testbench.Proofs.Vhdl.Range
import Testbench.Proofs.Vhdl.Verbatim

/-!
# Entities that are read are quiet

What an entity keeps from its source is tidy and balanced, so no comment begins in it and no
string stays open.  The entity is quiet about every name that is not its own and no word of the
texts that it keeps, unless the name is a direction before a bound that begins with an arrow.
-/

namespace Testbench.Check

open Vhdl Nesting

variable {names : Text → Prop} {e : Entity} {p : Port} {r : Range} {t : Text} {n : Nesting}

/-! ### Texts that are kept -/

/-- A tidy and balanced text is sealed. -/
theorem sealed_of_tidy (tidy : Tidy t) (balanced : Balanced t) :
  Sealed t
  := by
  constructor
  · apply tidy.chain.imp
    rintro a b ⟨line, block, -⟩
    use line, block
  · have closed : (outer.after t).quoted = false := by
      rw [balanced.after]
      rfl
    apply (even_count_quotes outer t).2 closed

/-- The bounds of a range that a port is read with are sealed. -/
theorem sealed_bound (hp : p.IsRead) (hr : r ∈ p.range) {b : Bound}
    (hb : b = r.left ∨ b = r.right) :
  Sealed b.text
  := by
  obtain ⟨t, tidy, balanced, read⟩ := hp.range r hr
  obtain ⟨-, closed, part | digits⟩ := Range.bound_of_ofText read hb
  · apply sealed_of_tidy (tidy.of_isInfix part) (closed balanced)
  · apply sealed_of_isWordChar
    intro c hc
    simp [isWordChar, isDigit, digits c hc]

/-- A sealed text is quiet about names that are none of its words. -/
theorem Sealed.quiet (ht : Sealed t) (absent : ∀ n, names n → .word n ∉ Check.tokens t) :
  Quiet names t
  := by
  use ht.cutAtStop
  intro n hn
  apply not_associates_of_word_not_mem (absent n hn)

/-! ### Subtypes -/

theorem tokens_direction (d : Direction) :
  tokens (' ' :: d.name ++ [' ']) = [.word d.name]
  := by
  cases d <;> decide

theorem piece_direction (d : Direction) :
  Piece names (' ' :: d.name ++ [' '])
  := by
  apply Piece.of_isPlain
  cases d <;> decide

theorem subtype_eq (hr : p.range = some r) :
  p.subtype =
    p.type.name ++ ['('] ++ r.left.text ++ ' ' :: (r.direction.name ++ [' ']) ++
      (r.right.text ++ [')'])
  := by
  simp [Port.subtype, hr, Range.text]

/-- A subtype up to its right bound ends with the direction. -/
theorem piece_directed (d : DataType) (left : Quiet names r.left.text) :
  Piece names (d.name ++ ['('] ++ r.left.text ++ ' ' :: (r.direction.name ++ [' '])) ∧
    tokens (d.name ++ ['('] ++ r.left.text ++ ' ' :: (r.direction.name ++ [' '])) =
      tokens (d.name ++ ['('] ++ r.left.text) ++ [.word r.direction.name]
  := by
  have type : Phrase names d.name := Phrase.word d.isWord_name.forall_mem
  have opening : Piece names (d.name ++ ['(']) := type.append_stop (by decide)
  have opened : tokens (d.name ++ ['(']) = tokens d.name ++ [.opening] :=
    type.cut ['('] (by decide)
  have before : Phrase names (d.name ++ ['('] ++ r.left.text) :=
    opening.append_quiet opened (by simp) left
  use before.append_cons (by decide) (piece_direction r.direction)
  rw [before.cut _ (by simp [stops]), ← tokens_direction]
  rfl

/-- The subtype of a port is a phrase when its bounds are quiet and none of the names is the
direction in front of a bound that begins with an arrow. -/
theorem phrase_subtype
    (left : ∀ r ∈ p.range, Quiet names r.left.text)
    (right : ∀ r ∈ p.range, Quiet names r.right.text)
    (direction : ∀ r ∈ p.range, (tokens r.right.text).head? = some .arrow →
      ¬names r.direction.name) :
  Phrase names p.subtype
  := by
  cases hr : p.range with
  | none =>
    rw [Port.subtype, hr]
    apply Phrase.word p.type.isWord_name.forall_mem
  | some r =>
    obtain ⟨directed, read⟩ := piece_directed p.type (left r hr)
    rw [subtype_eq hr, ← List.append_assoc]
    apply Piece.phrase
    apply Phrase.append_stop _ (by decide)
    by_cases arrow : (tokens r.right.text).head? = some .arrow
    · apply directed.append_quiet read _ (right r hr)
      intro n hn eq
      apply direction r hr arrow
      rwa [Token.word.inj eq]
    · apply directed.append_phrase ((right r hr).phrase arrow)

/-- A bound that begins with an arrow associates the direction in front of it. -/
theorem associates_subtype (hr : p.range = some r) (left : Quiet names r.left.text)
    (right : Quiet names r.right.text) (arrow : (tokens r.right.text).head? = some .arrow) :
  associates r.direction.name (tokens p.subtype)
  := by
  obtain ⟨directed, read⟩ := piece_directed p.type left
  have head : (tokens r.right.text ++ tokens [')']).head? = some .arrow := by
    rw [List.head?_append, arrow]
    rfl
  rw [subtype_eq hr, directed.cut, read, right.cut [')'] (by decide), associates_append, head,
    List.getLast?_concat]
  simp

/-! ### Entities -/

/-- The texts that an entity keeps as they are written: the types and the defaults of its
generics, and the bounds and the defaults of its ports. -/
def keptTexts (e : Entity) : List Text :=
  e.generics.flatMap (fun g => g.type :: g.default.toList) ++
    e.ports.flatMap fun p =>
      p.range.toList.flatMap (fun r => [r.left.text, r.right.text]) ++ p.default.toList

/-- A name precedes an arrow in the subtype of a port when it is the direction of a range whose
right bound begins with an arrow. -/
def PrecedesArrow (e : Entity) (name : Text) : Prop :=
  ∃ p ∈ e.ports, ∃ r ∈ p.range, r.direction.name = name ∧
    (tokens r.right.text).head? = some .arrow

instance (e : Entity) (name : Text) : Decidable (PrecedesArrow e name) :=
  inferInstanceAs (Decidable (∃ p ∈ e.ports, ∃ r ∈ p.range, _ ∧ _))

/-- An entity that is read is quiet about the names that are not its own, do not occur in its texts
and precede no arrow. -/
theorem quietEntity_of_isRead (he : e.IsRead)
    (generics : ∀ g ∈ e.generics, ¬names g.name.key)
    (ports : ∀ p ∈ e.ports, ¬names p.name.key)
    (texts : ∀ n, names n → ∀ t ∈ keptTexts e, .word n ∉ tokens t)
    (arrow : ∀ n, names n → ¬PrecedesArrow e n) :
  QuietEntity names e
  := by
  have quiet : ∀ t ∈ keptTexts e, Sealed t → Quiet names t :=
    fun t mem ht => ht.quiet fun n hn => texts n hn t mem
  have generic : ∀ g ∈ e.generics, ∀ t ∈ g.type :: g.default.toList, t ∈ keptTexts e :=
    fun g hg t ht => List.mem_append_left _ (List.mem_flatMap.2 ⟨g, hg, ht⟩)
  have port : ∀ p ∈ e.ports, ∀ t ∈ p.range.toList.flatMap (fun r => [r.left.text, r.right.text]) ++
      p.default.toList, t ∈ keptTexts e :=
    fun p hp t ht => List.mem_append_right _ (List.mem_flatMap.2 ⟨p, hp, ht⟩)
  have bound : ∀ p ∈ e.ports, ∀ r ∈ p.range, ∀ b, b = r.left ∨ b = r.right →
      Quiet names b.text := by
    intro p hp r hr b hb
    apply quiet _ _ (sealed_bound (he.ports p hp) hr hb)
    apply port p hp
    rw [Option.mem_def] at hr
    rcases hb with rfl | rfl <;> simp [hr]
  have default : ∀ {t}, Verbatim t → t ∈ keptTexts e → Quiet names t :=
    fun ht mem => quiet _ mem (sealed_of_tidy ht.tidy ht.balanced)
  constructor
  · apply generics
  · intro g hg
    apply default (he.generics g hg).type (generic g hg _ List.mem_cons_self)
  · intro g hg d hd
    apply default ((he.generics g hg).default d hd) (generic g hg _ _)
    simpa using .inr hd
  · apply ports
  · intro p hp
    apply phrase_subtype
    · intro r hr
      apply bound p hp r hr _ (Or.inl rfl)
    · intro r hr
      apply bound p hp r hr _ (Or.inr rfl)
    · intro r hr first hn
      apply arrow _ hn ⟨p, hp, r, hr, rfl, first⟩
  · intro p hp d hd
    apply default ((he.ports p hp).default d hd) (port p hp _ _)
    simpa using .inr hd
  · intro p hp r hr
    apply bound p hp r hr _ (Or.inr rfl)

end Testbench.Check
