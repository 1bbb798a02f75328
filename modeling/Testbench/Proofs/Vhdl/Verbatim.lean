import Testbench.Proofs.Vhdl.Header
import Testbench.Proofs.Vhdl.Normal
import Testbench.Proofs.Vhdl.PortDeclaration
import Testbench.Vhdl.Source

/-!
# Texts that are kept as they are written

An entity keeps types, defaults and bounds as they are written.  Not every text can be kept:
what a declaration is read from is tidy, balanced and without a semicolon at the outer level,
and so is each of its parts.  `Entity.IsRead` says this of an entity, and it holds of every
entity that is read from source.
-/

namespace Testbench.Vhdl

open Nesting

variable {s t before rest body inside keyword subtype : Text} {value : Option Text}

/-- A text is whole when it is tidy, balanced and without a semicolon at the outer level. -/
structure Whole (t : Text) : Prop where
  tidy : Tidy t
  balanced : Balanced t
  lacks : outer.Lacks ';' t

/-- A text that is kept as it is written is whole, not empty and trimmed. -/
structure Verbatim (t : Text) : Prop extends Whole t where
  ne_nil : t ≠ []
  trim : t.trim = t

namespace Whole

/-- The parts of a whole text that is split at the outer level are whole. -/
theorem of_append (h : Whole (s ++ t)) (hs : outer.after s = outer) :
  Whole s ∧ Whole t
  := by
  obtain ⟨before, behind⟩ := h.balanced.of_append hs
  have lacks := h.lacks
  rw [lacks_append, hs] at lacks
  constructor
  · use h.tidy.of_isInfix (List.prefix_append s t).isInfix, before, lacks.1
  · use h.tidy.of_isInfix (List.suffix_append s t).isInfix, behind, lacks.2

/-- The trim of a whole text is whole. -/
theorem trim (h : Whole t) :
  Whole t.trim
  := ⟨h.tidy.trim, h.balanced.trim, (lacks_trim (by decide)).2 h.lacks⟩

/-- The trim of a whole text can be kept unless it is empty. -/
theorem verbatim_trim (h : Whole t) (ne : t.trim ≠ []) :
  Verbatim t.trim
  := ⟨h.trim, ne, t.trim_trim⟩

end Whole

/-- A text that is kept is solid. -/
theorem Verbatim.solid (h : Verbatim t) :
  Solid t
  := ⟨h.tidy, h.ne_nil, h.trim⟩

/-- A solid text can be kept if it is balanced and holds no semicolon at the outer level. -/
theorem Solid.verbatim (h : Solid t) (balanced : Balanced t) (lacks : outer.Lacks ';' t) :
  Verbatim t
  := ⟨⟨h.tidy, balanced, lacks⟩, h.ne_nil, h.trim⟩

/-- Texts that are kept are kept with a space between them. -/
theorem Verbatim.spaced (hs : Verbatim s) (ht : Verbatim t) :
  Verbatim (s ++ ' ' :: t)
  := by
  have space : Balanced [' '] := Balanced.of_isPlain (by decide)
  apply (hs.solid.spaced ht.solid).verbatim
  · apply hs.balanced.append (space.append ht.balanced)
  · rw [lacks_append, hs.balanced.after, lacks_cons]
    use hs.lacks, by decide
    apply ht.lacks

/-- Words can be kept. -/
theorem IsWord.verbatim (hs : IsWord s) :
  Verbatim s
  := hs.solid.verbatim hs.balanced (lacks_of_not_mem (hs.not_mem (by decide)))

/-- An assignment sign can be kept. -/
theorem verbatim_assignment :
  Verbatim [':', '=']
  := Solid.verbatim (by decide) (Balanced.of_isPlain (by decide)) (lacks_of_not_mem (by decide))

/-! ### Declarations -/

namespace Declaration

/-- The inside of a clause in a tidy body is tidy and balanced. -/
theorem of_clause?_eq_some (h : clause? keyword body = .ok (some inside)) (tidy : Tidy body) :
  Tidy inside ∧ Balanced inside
  := by
  rw [clause?] at h
  split at h
  · simp at h
  · next behind found =>
    split at h
    · next opened parenthesis =>
      split at h
      · next inside' _ closing =>
        obtain rfl : inside'.trim = inside := by simpa using h
        obtain ⟨rfl, balanced⟩ := splitClosing?_eq_some_iff.1 closing
        apply And.intro _ balanced.trim
        apply Tidy.trim (tidy.of_isInfix _)
        simp only [splitWord?, Option.map_eq_some_iff, Prod.exists, Prod.mk.injEq] at found
        obtain ⟨before, rest, found, rfl, rfl⟩ := found
        have part : inside' <:+: Text.trimStart (rest.drop keyword.length) := by
          rw [parenthesis]
          apply (List.prefix_append inside' _).isInfix.trans (List.suffix_cons '(' _).isInfix
        apply part.trans
        apply (List.dropWhile_suffix isBlank).isInfix.trans
        apply (List.drop_suffix keyword.length rest).isInfix.trans
        rw [← splitWhere_append found]
        apply (List.suffix_append before rest).isInfix
      · simp at h
    · simp at h

/-- A declaration in the inside of a clause can be kept. -/
theorem verbatim_of_mem_list (h : t ∈ list inside) (tidy : Tidy inside)
    (balanced : Balanced inside) :
  Verbatim t
  := by
  simp only [list, List.mem_filter, decide_eq_true_eq] at h
  obtain ⟨piece, ne⟩ := h
  obtain ⟨trim, balanced, lacks, part⟩ :=
    balanced.of_mem_split (by decide) (by decide) piece
  use ⟨tidy.of_isInfix part, balanced, lacks⟩, ne, trim

/-- What is read of a tidy body is read of one of its declarations, which is whole. -/
theorem exists_of_mem_of_readClause {α : Type} {x : α} {xs : List α} {malformed : Fault → Error}
    {read : Text → Except Error (List α)} (h : readClause keyword malformed read body = .ok xs)
    (tidy : Tidy body) (hx : x ∈ xs) :
  ∃ declaration members, Whole declaration ∧ read declaration = .ok members ∧ x ∈ members
  := by
  simp only [readClause, bind_eq_ok, mapError_eq_ok] at h
  obtain ⟨clause, found, h⟩ := h
  cases clause with
  | none =>
    obtain rfl : [] = xs := by simpa [pure, Except.pure] using h
    simp at hx
  | some inside =>
    simp only [bind_eq_ok, pure, Except.pure, Except.ok.injEq] at h
    obtain ⟨lists, read, rfl⟩ := h
    obtain ⟨tidyInside, balanced⟩ := of_clause?_eq_some found tidy
    obtain ⟨members, listed, hx⟩ := List.mem_flatten.1 hx
    obtain ⟨declaration, mem, made⟩ := exists_of_mem_of_mapM_eq_ok read listed
    use declaration, members, (verbatim_of_mem_list mem tidyInside balanced).toWhole

/-- What stands behind the colon of a whole declaration is whole. -/
theorem of_splitNames_eq_ok (h : splitNames t = .ok (before, rest)) (whole : Whole t) :
  Whole rest
  := by
  rw [splitNames] at h
  split at h
  · next parts found =>
    obtain rfl : parts = (before, rest) := by simpa using h
    obtain ⟨rfl, -, ends, -⟩ := splitColon?_eq_some_iff.1 found
    rw [List.append_cons] at whole
    apply (whole.of_append _).2
    rw [after_append, ends]
    rfl
  · simp at h

/-- The subtype and the default in a whole text are trimmed and whole, the default is not
empty, and the subtype has no assignment. -/
theorem of_splitDefault_eq_ok (h : splitDefault t = .ok (subtype, value)) (whole : Whole t) :
  Whole subtype ∧ subtype.trim = subtype ∧ splitAssignment? subtype = none ∧
    ∀ d ∈ value, Verbatim d
  := by
  rw [splitDefault] at h
  split at h
  · next absent =>
    obtain ⟨rfl, rfl⟩ : t.trim = subtype ∧ none = value := by simpa using h
    rw [splitAssignment?_eq_none_iff] at absent
    use whole.trim, t.trim_trim
    constructor
    · rw [splitAssignment?_eq_none_iff]
      apply misses_isAssignmentAt_trim absent (by simp)
    · simp
  · next subtype' value' found =>
    split at h
    · simp at h
    · next ne =>
      obtain ⟨rfl, rfl⟩ : subtype'.trim = subtype ∧ some value'.trim = value := by simpa using h
      obtain ⟨rfl, misses, ends⟩ := splitAssignment?_eq_some_iff.1 found
      obtain ⟨wholeSubtype, further⟩ := whole.of_append ends
      have wholeValue := (further.of_append (s := [':', '=']) rfl).2
      use wholeSubtype.trim, Text.trim_trim _
      constructor
      · rw [splitAssignment?_eq_none_iff]
        apply misses_isAssignmentAt_trim misses (by simp)
      · intro d hd
        obtain rfl : value'.trim = d := by simpa using hd
        apply wholeValue.verbatim_trim ne

end Declaration

/-! ### Entities that are read -/

/-- The texts of a generic that is read can be kept, and the type has no assignment. -/
structure Generic.IsRead (g : Generic) : Prop where
  type : Verbatim g.type
  noAssignment : splitAssignment? g.type = none
  default : ∀ d ∈ g.default, Verbatim d

/-- The range of a port that is read is written by a tidy and balanced text, and the default
can be kept. -/
structure Port.IsRead (p : Port) : Prop where
  range : ∀ r ∈ p.range, ∃ t, Tidy t ∧ Balanced t ∧ Range.ofText t = .ok r
  default : ∀ d ∈ p.default, Verbatim d

/-- The generics and ports of an entity that is read are those of declarations in source. -/
structure Entity.IsRead (e : Entity) : Prop where
  generics : ∀ g ∈ e.generics, g.IsRead
  ports : ∀ p ∈ e.ports, p.IsRead

namespace Generic

theorem isRead_of_ofDeclaration_eq_ok {generics : List Generic} {g : Generic}
    (h : ofDeclaration t = .ok generics) (whole : Whole t) (hg : g ∈ generics) :
  g.IsRead
  := by
  simp only [ofDeclaration, bind_eq_ok, Prod.exists, pure, Except.pure, Except.ok.injEq] at h
  obtain ⟨before, rest, names, type, default, typed, identifiers, -, rfl⟩ := h
  obtain ⟨i, -, rfl⟩ := List.mem_map.1 hg
  simp only [splitType, bind_eq_ok, Prod.exists] at typed
  obtain ⟨subtype, value, parts, typed⟩ := typed
  split at typed
  · simp at typed
  · next ne =>
    obtain ⟨rfl, rfl⟩ : subtype = type ∧ value = default := by simpa using typed
    obtain ⟨wholeType, trim, noAssignment, kept⟩ :=
      Declaration.of_splitDefault_eq_ok parts (Declaration.of_splitNames_eq_ok names whole)
    use ⟨wholeType, ne, trim⟩, noAssignment, kept

theorem isRead_of_ofBody_eq_ok {generics : List Generic} {g : Generic}
    (h : ofBody body = .ok generics) (tidy : Tidy body) (hg : g ∈ generics) :
  g.IsRead
  := by
  rw [ofBody_eq_readClause] at h
  obtain ⟨declaration, members, whole, read, hg⟩ :=
    Declaration.exists_of_mem_of_readClause h tidy hg
  rw [ofDeclaration?, mapError_eq_ok] at read
  apply isRead_of_ofDeclaration_eq_ok read whole hg

end Generic

namespace Port

/-- The range of a subtype is read of a balanced part of its text. -/
theorem IsSubtype.exists_range {shape : Shape} {r : Range} (h : IsSubtype t shape)
    (hr : r ∈ shape.range) :
  ∃ s, s <:+: t ∧ Balanced s ∧ Range.ofText s = .ok r
  := by
  obtain @⟨mode, w, range, shape, -, -, part⟩ := h
  generalize shape.range = written at part hr
  cases part with
  | absent => simp at hr
  | @written a s r' _ balanced read =>
    obtain rfl : r' = r := by simpa using hr
    use s, ⟨mode ++ (w ++ (a ++ ['('])), [')'], by simp⟩, balanced, read

/-- What stands behind the colon of a declaration is kept: the range is read of a tidy and balanced
text, and the default is a text that can be kept. -/
theorem IsRest.of_whole {shape : Shape} {default : Option Text} (h : IsRest t shape default)
    (whole : Whole t) :
  (∀ r ∈ shape.range, ∃ s, Tidy s ∧ Balanced s ∧ Range.ofText s = .ok r) ∧
    ∀ d ∈ default, Verbatim d
  := by
  cases h with
  | @intro a core b value _ _ ha hb subtype part =>
    constructor
    · intro r hr
      obtain ⟨s, inside, balanced, read⟩ := subtype.exists_range hr
      have infix_ : core <:+: a ++ core ++ b ++ value := ⟨a, b ++ value, by simp⟩
      use s, whole.tidy.of_isInfix (inside.trans infix_), balanced, read
    · intro d hd
      cases part with
      | absent => simp at hd
      | @assigned v ne =>
        obtain rfl : v.trim = d := by simpa using hd
        have level : outer.after (a ++ core ++ b ++ [':', '=']) = outer := by
          rw [after_append, subtype.after ha hb]
          rfl
        have shape :
            a ++ core ++ b ++ ':' :: '=' :: v = (a ++ core ++ b ++ [':', '=']) ++ v := by simp
        rw [shape] at whole
        apply (whole.of_append level).2.verbatim_trim ne

theorem isRead_of_ofDeclaration_eq_ok {ports : List Port} {p : Port}
    (h : ofDeclaration t = .ok ports) (whole : Whole t) (hp : p ∈ ports) :
  p.IsRead
  := by
  obtain ⟨is, shape, default, declaration, made⟩ := ofDeclaration_eq_ok_iff.1 h
  obtain ⟨i, -, declares⟩ := exists_of_mem_of_forall₂ made hp
  cases declaration with
  | @intro before rest _ _ _ names behind _ =>
    have level : outer.after (before ++ [':']) = outer := by
      rw [after_append, (names.balanced isWord_signal).after]
      rfl
    rw [List.append_cons] at whole
    obtain ⟨range, value⟩ := behind.of_whole (whole.of_append level).2
    constructor
    · rwa [declares.range]
    · rwa [declares.default]

theorem isRead_of_ofBody_eq_ok {ports : List Port} {p : Port}
    (h : ofBody body = .ok ports) (tidy : Tidy body) (hp : p ∈ ports) :
  p.IsRead
  := by
  rw [ofBody_eq_readClause] at h
  obtain ⟨declaration, members, whole, read, hp⟩ :=
    Declaration.exists_of_mem_of_readClause h tidy hp
  apply isRead_of_ofDeclaration_eq_ok read whole hp

end Port

/-- The texts of an entity that is read from source are kept as they are written there. -/
theorem Entity.isRead_of_ofSource_eq_ok {e : Entity} (h : ofSource t = .ok e) :
  e.IsRead
  := by
  simp only [ofSource, bind_eq_ok] at h
  obtain ⟨declared, found, generics, hg, ports, hp, made⟩ := h
  obtain ⟨-, sameGenerics, samePorts⟩ := ofParts_eq_ok_iff.1 made
  have tidy : Tidy declared.body :=
    (tidy_normalize t).of_isInfix (EntityText.isInfix_of_ofSource_eq_ok found)
  constructor
  · intro g hg'
    apply Generic.isRead_of_ofBody_eq_ok hg tidy
    rwa [← sameGenerics]
  · intro p hp'
    apply Port.isRead_of_ofBody_eq_ok hp tidy
    rwa [← samePorts]

/-! ### An entity that is read -/

/-- The source of an entity with a generic on which the range of a port depends. -/
def shifterSource : Text :=
  "entity Shifter is generic (n : natural := 4); port (d : bit; " ++
    "q : out bit_vector(n - 1 to 7)); end;"

/-- The entity that `shifterSource` declares. -/
def shifter : Entity where
  name := ⟨"Shifter", by decide⟩
  generics := [⟨⟨"n", by decide⟩, "natural", some "4"⟩]
  ports :=
    [⟨⟨"d", by decide⟩, .input, .bit, none, none, rfl⟩,
      ⟨⟨"q", by decide⟩, .output, .bitVector, some ⟨.expr "n - 1", .int 7, .up⟩, none, rfl⟩]
  generics_distinct := by decide
  ports_distinct := by decide

theorem ofSource_shifter :
  Entity.ofSource shifterSource = .ok shifter
  := by decide +kernel

end Testbench.Vhdl
