import Testbench.Layout.Component
import Testbench.Proofs.Layout.Clause
import Testbench.Proofs.Text.Lines

/-!
# Components that are read as entities

The declaration of an entity as a component differs from its declaration as an entity in the
first and in the last line.  With these lines replaced, the component of an entity that is
read from source is source for the same entity.
-/

namespace Testbench.Layout

open Vhdl Nesting

variable {e : Entity} {items : List Item} {gs ps ts : List Text} {keyword word : Text}

/-- The part of a body that declares the members of a clause: nothing for no members. -/
def clausePart (keyword : Text) (ts : List Text) : Text :=
  if ts = [] then [] else ' ' :: Declaration.clauseText keyword (Text.join "; " ts)

/-- The body that `normalize` leaves of an entity declaration with the given generics and
ports. -/
def normalBody (gs ps : List Text) : Text := clausePart "generic" gs ++ clausePart "port" ps

/-! ### The normal form of a component -/

theorem squeezes_unlessEmpty (style : Style) (depth : Nat) (hk : IsWord keyword)
    (hi : ∀ i ∈ items, i.IsKept) :
  ∃ ts, List.Forall₂ Item.Writes items ts ∧
    Squeezes (unlessEmpty items ('\n' :: interfacePart · keyword style depth))
      (clausePart keyword ts)
  := by
  rw [unlessEmpty]
  split
  · next empty =>
    obtain rfl := empty
    use [], List.Forall₂.nil
    intro r _
    rfl
  · next ne =>
    obtain ⟨ts, writes, squeezes⟩ := squeezes_interfacePart style depth hk hi ne
    use ts, writes
    have nonempty : ts ≠ [] := by
      rintro rfl
      cases items with
      | nil => contradiction
      | cons i items => simp at writes
    rw [clausePart, if_neg nonempty]
    apply squeezes

/-- The line feed behind a part that may be empty may stand before it. -/
theorem cons_unlessEmpty (items : List Item) (write : List Item → Text) (r : Text) :
  '\n' :: (unlessEmpty items (write · ++ ['\n']) ++ r) =
    unlessEmpty items ('\n' :: write ·) ++ '\n' :: r
  := by
  rw [unlessEmpty, unlessEmpty]
  split
  · rfl
  · simp

theorem eq_nil_or_exists_unlessEmpty (items : List Item) (write : List Item → Text) :
  unlessEmpty items (write · ++ ['\n']) = [] ∨
    ∃ t, unlessEmpty items (write · ++ ['\n']) = t ++ ['\n']
  := by
  rw [unlessEmpty]
  split
  · left
    rfl
  · right
    use write items

/-- With its first and its last line replaced, a component consists of a header, its parts
and a closing part. -/
theorem withEnds_component (e : Entity) (style : Style) (depth : Nat) (first last : Text) :
  (component e style depth).withEnds first last =
    first ++ (unlessEmpty (genericItems e) ('\n' :: interfacePart · "generic" style (depth + 1)) ++
      (unlessEmpty (portItems e) ('\n' :: interfacePart · "port" style (depth + 1)) ++
        ('\n' :: last ++ ['\n'])))
  := by
  have indent : '\n' ∉ style.indent depth := by
    intro mem
    exact absurd (Text.eq_space_of_mem_spaces mem) (by decide)
  have name : '\n' ∉ e.name.text := e.name.isWord.not_mem (by decide)
  let generics := unlessEmpty (genericItems e)
    (interfacePart · "generic" style (depth + 1) ++ ['\n'])
  let ports := unlessEmpty (portItems e) (interfacePart · "port" style (depth + 1) ++ ['\n'])
  have shape : component e style depth = (style.indent depth ++ "component " ++ e.name.text) ++
      '\n' :: ((generics ++ ports) ++ ((style.indent depth ++ "end component;") ++ ['\n'])) := by
    simp [component, generics, ports]
  have middle : generics ++ ports = [] ∨ ∃ m, generics ++ ports = m ++ ['\n'] := by
    rcases eq_nil_or_exists_unlessEmpty (portItems e)
      (interfacePart · "port" style (depth + 1)) with none | ⟨m, some⟩
    · have empty : ports = [] := none
      rw [empty, List.append_nil]
      apply eq_nil_or_exists_unlessEmpty
    · have last : ports = m ++ ['\n'] := some
      right
      use generics ++ m
      rw [last, List.append_assoc]
  have opening : '\n' ∉ style.indent depth ++ "component " ++ e.name.text := by
    simp [indent, name]
  have closing : '\n' ∉ style.indent depth ++ "end component;" := by
    simp [indent]
  rw [shape, Text.withEnds_append opening closing middle, List.append_assoc, cons_unlessEmpty,
    cons_unlessEmpty]
  rfl

/-- The normal form of a component with the header and the closing part of an entity. -/
theorem normalize_component (he : e.IsRead) (style : Style) (depth : Nat) :
  ∃ gs ps, List.Forall₂ Item.Writes (genericItems e) gs ∧
    List.Forall₂ Item.Writes (portItems e) ps ∧
    normalize ((component e style depth).withEnds ("entity " ++ e.name.text ++ " is")
        "end entity;") =
      "entity " ++ (e.name.text ++ (" is" ++ (normalBody gs ps ++ " end entity;")))
  := by
  have keptGenerics : ∀ i ∈ genericItems e, i.IsKept := by
    intro i hi
    obtain ⟨g, mem, rfl⟩ := List.mem_map.1 hi
    apply Item.isKept_ofGeneric (he.generics g mem)
  have keptPorts : ∀ i ∈ portItems e, i.IsKept := by
    intro i hi
    obtain ⟨p, mem, rfl⟩ := List.mem_map.1 hi
    apply Item.isKept_ofPort (he.ports p mem)
  obtain ⟨gs, writesGenerics, generics⟩ :=
    squeezes_unlessEmpty style (depth + 1) isWord_generic keptGenerics
  obtain ⟨ps, writesPorts, ports⟩ :=
    squeezes_unlessEmpty style (depth + 1) isWord_port keptPorts
  use gs, ps, writesGenerics, writesPorts
  have header : Squeezes ("entity".toList ++ ' ' :: (e.name.text ++ ' ' :: "is".toList))
      ("entity".toList ++ ' ' :: (e.name.text ++ ' ' :: "is".toList)) := by
    apply Solid.squeezes (Solid.spaced (by decide) (e.name.isWord.solid.spaced (by decide)))
  have closing : Squeezes (['\n'] ++ "end entity;") (' ' :: "end entity;".toList) :=
    Solid.squeezes_append (by decide) (by decide) (by simp)
  -- behind each chunk a line feed follows, which completes no comment
  have feed : ∀ (items : List Item) (keyword r : Text), (∀ c ∈ r.head?, c ≠ '-' ∧ c ≠ '*') →
      ∀ c ∈ (unlessEmpty items ('\n' :: interfacePart · keyword style (depth + 1)) ++ r).head?,
        c ≠ '-' ∧ c ≠ '*' := by
    intro items keyword r hr c hc
    rw [unlessEmpty] at hc
    split at hc
    · apply hr c hc
    · obtain rfl : '\n' = c := by simpa using hc
      decide
  have last : ∀ c ∈ (['\n'] ++ "end entity;".toList).head?, c ≠ '-' ∧ c ≠ '*' := by decide
  have body := generics.append (ports.append closing last) (feed _ _ _ last)
  have whole := header.append body (feed _ _ _ (feed _ _ _ last))
  have starts : ∀ t : Text, ("entity".toList ++ t).head?.any isWordChar := fun t => rfl
  have written :=
    whole.normalize (w := ['\n']) (by rw [List.append_assoc]; apply starts) (by decide)
  rw [withEnds_component]
  simpa [normalBody] using written

/-! ### Reading the normal form -/

theorem after_clausePart (hk : IsWord keyword) (ht : ∀ t ∈ ts, Declaration.IsMember t) :
  outer.after (clausePart keyword ts) = outer
  := by
  rw [clausePart]
  split
  · rfl
  · rw [after_cons, next_of_isPlain (by decide),
      Declaration.after_clauseText hk (Declaration.balanced_join ht).1]

/-- A clause misses each word but its keyword. -/
theorem misses_clausePart {prev : Option Char} {r : Text} (hk : IsWord keyword) (hw : IsWord word)
    (other : ¬keyword.sameWord word) (ht : ∀ t ∈ ts, Declaration.IsMember t) :
  Misses (isWordAt word) outer prev (clausePart keyword ts) r
  := by
  rw [clausePart]
  split
  · trivial
  · rw [misses_isWordAt_cons hw (by decide), next_of_isPlain (by decide)]
    apply Declaration.misses_clauseText hk hw (Declaration.balanced_join ht).1 other

/-- A clause around anything is trimmed. -/
theorem trim_clauseText (hk : IsWord keyword) (inside : Text) :
  (Declaration.clauseText keyword inside).trim = Declaration.clauseText keyword inside
  := by
  have shape :
      Declaration.clauseText keyword inside = keyword ++ ((" ( " ++ inside ++ " ") ++ ");") := by
    simp [Declaration.clauseText]
  rw [shape]
  apply Text.trim_append_append hk.trim hk.ne_nil (by decide) (by decide)

/-- A body in normal form is trimmed but for the space at its start. -/
theorem trim_normalBody (gs ps : List Text) :
  (normalBody gs ps).trim = (normalBody gs ps).drop 1
  := by
  have blank : ∀ c ∈ [' '], isBlank c := by decide
  have nonempty : ∀ {keyword inside : Text}, IsWord keyword →
      Declaration.clauseText keyword inside ≠ [] := by
    intro keyword inside hk
    simp [Declaration.clauseText, hk.ne_nil]
  rw [normalBody, clausePart, clausePart]
  split
  · split
    · rfl
    · apply (Text.trim_append_left blank).trans (trim_clauseText isWord_port _)
  · split
    · rw [List.append_nil]
      apply (Text.trim_append_left blank).trans (trim_clauseText isWord_generic _)
    · apply (Text.trim_append_left blank).trans
      apply Text.trim_append_append (trim_clauseText isWord_generic _) (nonempty isWord_generic)
        (trim_clauseText isWord_port _) (nonempty isWord_port) [' ']

section

variable (hg : ∀ t ∈ gs, Declaration.IsMember t) (hp : ∀ t ∈ ps, Declaration.IsMember t)
include hg hp

/-- The clause of the generics is found in a body in normal form. -/
theorem clause?_generic :
  Declaration.clause? "generic" (normalBody gs ps).trim =
    .ok (if gs = [] then none else some (Text.join "; " gs))
  := by
  rw [trim_normalBody, normalBody]
  split
  · next empty =>
    apply Declaration.clause?_eq_none
    rw [clausePart, if_pos empty, List.nil_append, clausePart]
    split
    · trivial
    · apply Declaration.misses_clauseText isWord_port isWord_generic _ (by decide)
      apply (Declaration.balanced_join hp).1
  · next ne =>
    obtain ⟨balanced, trim⟩ := Declaration.balanced_join hg
    rw [clausePart, if_neg ne, List.cons_append, List.drop_one, List.tail_cons,
      Declaration.clause?_clauseText isWord_generic balanced, trim]

/-- The clause of the ports is found in a body in normal form. -/
theorem clause?_port :
  Declaration.clause? "port" (normalBody gs ps).trim =
    .ok (if ps = [] then none else some (Text.join "; " ps))
  := by
  have found : Declaration.clause? "port" (clausePart "port" ps) =
      .ok (if ps = [] then none else some (Text.join "; " ps)) := by
    rw [clausePart]
    split
    · rfl
    · obtain ⟨balanced, trim⟩ := Declaration.balanced_join hp
      have clause := Declaration.clause?_clauseText isWord_port balanced []
      rw [List.append_nil, trim] at clause
      rw [Declaration.clause?_space isWord_port, clause]
  rw [trim_normalBody, normalBody, ← found]
  by_cases noGenerics : gs = []
  · rw [clausePart, if_pos noGenerics, List.nil_append, clausePart]
    split
    · rfl
    · apply (Declaration.clause?_space isWord_port _).symm
  · have generics := (Declaration.balanced_join hg).1
    have passed := Declaration.clause?_append isWord_port
      ((lacksWord_iff isWord_port).2 (Declaration.misses_clauseText isWord_generic isWord_port
        generics (by decide))) (Declaration.after_clauseText isWord_generic generics)
      (t := clausePart "port" ps)
    rw [clausePart, if_neg noGenerics, List.cons_append, List.drop_one, List.tail_cons]
    apply passed
    apply apart_of_head
    rw [clausePart]
    split
    · simp
    · simpa using (by decide : ¬isWordChar ' ')

end

/-! ### Reading a component -/

/-- An entity whose texts are kept from source is found again in its component, with the
header and the closing part of an entity, unless a name is taken for the class of the
objects. -/
theorem ofSource_of_isRead (he : e.IsRead) (hp : ∀ p ∈ e.ports, ¬p.name.text.sameWord "signal")
    (hg : ∀ g ∈ e.generics, ¬g.name.text.sameWord "constant") (style : Style) (depth : Nat) :
  Entity.ofSource ((component e style depth).withEnds ("entity " ++ e.name.text ++ " is")
    "end entity;") = .ok e
  := by
  obtain ⟨gs, ps, writesGenerics, writesPorts, normal⟩ := normalize_component he style depth
  have membersGenerics : ∀ t ∈ gs, Declaration.IsMember t := by
    apply isMember_of_writes _ writesGenerics
    intro i hi
    obtain ⟨g, mem, rfl⟩ := List.mem_map.1 hi
    apply Item.isKept_ofGeneric (he.generics g mem)
  have membersPorts : ∀ t ∈ ps, Declaration.IsMember t := by
    apply isMember_of_writes _ writesPorts
    intro i hi
    obtain ⟨p, mem, rfl⟩ := List.mem_map.1 hi
    apply Item.isKept_ofPort (he.ports p mem)
  have head : ¬(normalBody gs ps).head?.any isWordChar := by
    rw [normalBody, clausePart, clausePart]
    split <;> split <;> simp <;> decide
  have declared : EntityText.ofSource (normalize ((component e style depth).withEnds
      ("entity " ++ e.name.text ++ " is") "end entity;")) =
      .ok ⟨e.name.text, (normalBody gs ps).trim⟩ := by
    rw [normal]
    apply EntityText.ofSource_eq_ok e.name.isWord head
    · rw [normalBody, misses_append]
      use misses_clausePart isWord_generic EntityText.isWord_end (by decide) membersGenerics
      rw [after_clausePart isWord_generic membersGenerics]
      apply misses_clausePart isWord_port EntityText.isWord_end (by decide) membersPorts
    · rw [normalBody, after_append, after_clausePart isWord_generic membersGenerics,
        after_clausePart isWord_port membersPorts]
  have generics : Generic.ofBody (normalBody gs ps).trim = .ok e.generics :=
    Generic.ofBody_eq_ok (clause?_generic membersGenerics membersPorts) writesGenerics
      he.generics hg
  have ports : Port.ofBody (normalBody gs ps).trim = .ok e.ports :=
    Port.ofBody_eq_ok (clause?_port membersGenerics membersPorts) writesPorts he.ports hp
  apply bind_eq_ok.2 ⟨_, declared, ?_⟩
  apply bind_eq_ok.2 ⟨_, generics, ?_⟩
  apply bind_eq_ok.2 ⟨_, ports, ?_⟩
  apply Entity.ofParts_eq_ok_iff.2 ⟨rfl, rfl, rfl⟩

/-- An entity that is read from source is found again in its component, with the header and
the closing part of an entity, unless a name is taken for the class of the objects. -/
theorem ofSource_component {t : Text} (h : Entity.ofSource t = .ok e)
    (hp : ∀ p ∈ e.ports, ¬p.name.text.sameWord "signal")
    (hg : ∀ g ∈ e.generics, ¬g.name.text.sameWord "constant") (style : Style) (depth : Nat) :
  Entity.ofSource ((component e style depth).withEnds ("entity " ++ e.name.text ++ " is")
    "end entity;") = .ok e
  := ofSource_of_isRead (Entity.isRead_of_ofSource_eq_ok h) hp hg style depth

/-- The component of the shifter in the standard style reads as the shifter. -/
theorem ofSource_component_shifter :
  Entity.ofSource shifterSource = .ok shifter ∧
    Entity.ofSource ((component shifter .standard 1).withEnds
      ("entity " ++ shifter.name.text ++ " is") "end entity;") = .ok shifter
  := ⟨ofSource_shifter, ofSource_component ofSource_shifter (by decide) (by decide) .standard 1⟩

end Testbench.Layout
