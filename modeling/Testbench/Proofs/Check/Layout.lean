import Testbench.Layout.Component
import Testbench.Proofs.Check.Silent
import Testbench.Proofs.Vhdl.Entity

/-!
# What is written of items

The lines of a list of items are silent about names that are not those of the items, provided
that the types and the values of the items are quiet.  The lists, the component declaration and
the instance that are made of them are pieces.
-/

namespace Testbench.Check

open Vhdl Layout

variable {names : Text → Prop} {i : Item} {items : List Item} {style : Style}
  {depth column : Nat} {keyword s t : Text} {ts : List Text} {c : Char}

/-! ### Items -/

/-- An item is quiet when its type and its value are.  Behind a mode the type may not begin with
an arrow. -/
structure QuietItem (names : Text → Prop) (i : Item) : Prop where
  name : IsWord i.name
  type : Quiet names i.type
  head : i.mode ≠ none → (tokens i.type).head? ≠ some .arrow
  value : ∀ v ∈ i.value, Quiet names v

/-- The name of an item with a colon behind it. -/
theorem cut_colon (hi : IsWord i.name) (p : Placement) (column : Nat) :
  Cut (i.name ++ p.padding column i.name ++ ": ") ∧
    tokens (i.name ++ p.padding column i.name ++ ": ") = [.word i.name.lower, .colon]
  := by
  have heading := cut_heading hi
    (if p.aligned then column - i.name.length + p.offset else p.offset) [':'] (by decide)
    tokenizeFrom_colon
  rwa [List.append_assoc] at heading

/-- The name of an item with an arrow behind it. -/
theorem cut_arrow (hi : IsWord i.name) (p : Placement) (column : Nat) :
  Cut (i.name ++ p.padding column i.name ++ "=> ") ∧
    tokens (i.name ++ p.padding column i.name ++ "=> ") = [.word i.name.lower, .arrow]
  := by
  have heading := cut_heading hi
    (if p.aligned then column - i.name.length + p.offset else p.offset) ['=', '>'] (by decide)
    tokenizeFrom_arrow
  rwa [List.append_assoc] at heading

namespace QuietItem

/-- The assignment of a quiet value begins with a space. -/
theorem assignment (hi : QuietItem names i) :
  Phrase names i.assignment ∧ ∀ c ∈ i.assignment.head?, c ∈ stops
  := by
  rw [Item.assignment]
  split
  · next v hv =>
    have sign : Piece names " := " := by
      apply Piece.of_isPlain (by decide)
    constructor
    · apply sign.append_quiet (a := []) (m := .becomes) (by decide) (by simp) (hi.value v hv)
    · simp [stops]
  · exact ⟨Piece.nil.phrase, by simp⟩

/-- The name of a quiet item with a colon behind it. -/
theorem heading (hi : QuietItem names i) (p : Placement) (column : Nat) :
  Piece names (i.name ++ p.padding column i.name ++ ": ")
  := by
  obtain ⟨cut, read⟩ := cut_colon hi.name p column
  use cut
  rw [read]
  apply Silent.of_not_mem
  simp

theorem piece_modePart (i : Item) :
  Piece names i.modePart
  := by
  rw [Item.modePart]
  split
  · next mode _ =>
    apply (Phrase.word mode.isWord_name.forall_mem).append_stop (by decide)
  · apply Piece.nil

/-- The type of a quiet item behind its name and its mode. -/
theorem indication (hi : QuietItem names i) (p : Placement) (column : Nat) :
  Phrase names (i.name ++ p.padding column i.name ++ ": " ++ i.modePart ++ i.type)
  := by
  have heading := hi.heading p column
  cases hm : i.mode with
  | some mode =>
    apply (heading.append (piece_modePart i)).append_phrase
    apply hi.type.phrase (hi.head (by simp [hm]))
  | none =>
    have read := (cut_colon hi.name p column).2
    rw [Item.modePart, hm, List.append_nil]
    apply heading.append_quiet (a := [.word i.name.lower]) (m := .colon) read (by simp) hi.type

/-- A quiet item is a phrase in an interface list. -/
theorem interfaceLine (hi : QuietItem names i) (style : Style) (column : Nat) :
  Phrase names (i.interfaceLine style column)
  := (hi.indication style.types column).append hi.assignment.1 hi.assignment.2

/-- The tokens of the type of an item stand among those of its line. -/
theorem isInfix_interfaceLine (hi : QuietItem names i) (style : Style) (column : Nat) :
  tokens i.type <:+: tokens (i.interfaceLine style column)
  := by
  have heading := hi.heading style.types column
  have named := heading.append (piece_modePart i)
  rw [Item.interfaceLine, (hi.indication style.types column).cut _ hi.assignment.2, named.cut]
  apply List.IsInfix.trans (List.suffix_append _ _).isInfix
  apply (List.prefix_append _ _).isInfix

/-- The declaration of a quiet item as an object is a piece that ends with a semicolon. -/
theorem declarationLine (hi : QuietItem names i) (hk : Phrase names keyword) (style : Style)
    (column : Nat) :
  Piece names (i.declarationLine keyword style column) ∧
    (tokens (i.declarationLine keyword style column)).getLast? = some .semicolon
  := by
  have shape : i.declarationLine keyword style column =
      keyword ++ [' '] ++ (i.name ++ style.types.padding column i.name ++ ": " ++ i.type ++
        i.assignment) ++ [';'] := by
    simp [Item.declarationLine]
  have read := (cut_colon hi.name style.types column).2
  have declared : Phrase names (keyword ++ [' '] ++ (i.name ++ style.types.padding column i.name ++
      ": " ++ i.type ++ i.assignment)) := by
    apply (hk.append_stop (by decide)).append_phrase
    apply Phrase.append _ hi.assignment.1 hi.assignment.2
    apply (hi.heading style.types column).append_quiet (a := [.word i.name.lower]) (m := .colon)
      read (by simp) hi.type
  rw [shape]
  use declared.append_stop (by decide)
  rw [declared.cut [';'] (by decide)]
  apply List.getLast?_concat

/-- A quiet item is associated with the object of its name, and no other name is associated. -/
theorem associationLine (hi : QuietItem names i) (other : ¬names i.name.lower) (style : Style)
    (column : Nat) :
  Phrase names (i.associationLine style column)
  := by
  obtain ⟨cut, read⟩ := cut_arrow hi.name style.mappings column
  have name := tokens_word hi.name.forall_mem
  rw [IsWord.wordToken_lower hi.name] at name
  have word : Phrase names i.name := Phrase.word hi.name.forall_mem
  use cut.append_cutAtStop word.cut
  rw [Item.associationLine, cut, read, name]
  constructor
  · simp
  · intro n hn
    have differ : n ≠ i.name.lower := by
      rintro rfl
      apply other hn
    simp [associates, Ne.symm differ]

/-- The association of an item associates its name. -/
theorem associates_associationLine (hi : QuietItem names i) (style : Style) (column : Nat) :
  associates i.name.lower (tokens (i.associationLine style column))
  := by
  obtain ⟨cut, read⟩ := cut_arrow hi.name style.mappings column
  rw [Item.associationLine, cut, read]
  simp [associates]

end QuietItem

/-! ### Lists of items -/

/-- Phrases with a separator between them that begins with a stop make a phrase. -/
theorem phrase_join {sep : Text} (hsep : Piece names (c :: sep)) (hc : c ∈ stops)
    (h : ∀ t ∈ ts, Phrase names t) :
  Phrase names (Text.join (c :: sep) ts)
  := by
  induction ts with
  | nil => exact Piece.nil.phrase
  | cons t ts ih =>
    cases ts with
    | nil => simpa [Text.join] using h t
    | cons t' ts =>
      rw [Text.join, List.intercalate_cons_cons, List.append_assoc]
      apply (h t List.mem_cons_self).append
      · apply hsep.append_phrase
        apply ih fun t ht => h t (List.mem_cons_of_mem _ ht)
      · simpa using hc

/-- The tokens of a phrase in a list stand among the tokens of the list. -/
theorem isInfix_tokens_join {sep : Text} (hsep : Piece names (c :: sep)) (hc : c ∈ stops)
    (h : ∀ t ∈ ts, Phrase names t) (ht : t ∈ ts) :
  tokens t <:+: tokens (Text.join (c :: sep) ts)
  := by
  induction ts with
  | nil => simp at ht
  | cons t' ts ih =>
    cases ts with
    | nil =>
      obtain rfl : t = t' := by simpa using ht
      simp [Text.join]
    | cons t'' ts =>
      have here := (h t' List.mem_cons_self).cut
        (c :: sep ++ Text.join (c :: sep) (t'' :: ts)) (by simpa using hc)
      rw [Text.join, List.intercalate_cons_cons, ← Text.join, List.append_assoc, here, hsep.cut]
      rcases List.mem_cons.1 ht with rfl | ht
      · apply (List.prefix_append _ _).isInfix
      · apply (ih (fun t ht => h t (List.mem_cons_of_mem _ ht)) ht).trans
        apply List.IsInfix.trans (List.suffix_append _ _).isInfix
        apply (List.suffix_append _ _).isInfix

theorem piece_indent (style : Style) (depth : Nat) :
  Piece names (style.indent depth)
  := Piece.spaces _

theorem tokens_indent_append (style : Style) (depth : Nat) (t : Text) :
  tokens (style.indent depth ++ t) = tokens t
  := tokens_spaces_append _ t

/-- Phrases in parentheses make a piece, and their tokens stand among those of the piece. -/
theorem piece_enclosed {opening : Text} (ho : Phrase names opening) (hc : c ∈ stops)
    (h : ∀ t ∈ ts, Phrase names t) (style : Style) (depth : Nat) :
  Piece names (enclosed opening [c] ts style depth) ∧
    ∀ t ∈ ts, tokens t <:+: tokens (enclosed opening [c] ts style depth)
  := by
  have lines : ∀ t ∈ ts.map (style.indent (depth + 1) ++ ·), Phrase names t := by
    intro t ht
    obtain ⟨line, hline, rfl⟩ := List.mem_map.1 ht
    apply (piece_indent style _).append_phrase (h line hline)
  have sep : Piece names (c :: ['\n']) := (Piece.stop hc).append (Piece.stop (by decide))
  have front : Piece names (style.indent depth ++ opening ++ " (\n") := by
    apply ((piece_indent style depth).append_phrase ho).append_cons (by decide)
    apply Piece.of_isPlain (by decide)
  have back : Piece names ('\n' :: (style.indent depth ++ [')'])) := by
    apply Piece.append (s := ['\n']) (Piece.stop (by decide))
    apply (piece_indent style depth).append (Piece.stop (by decide))
  have shape : enclosed opening [c] ts style depth =
      style.indent depth ++ opening ++ " (\n" ++
        (Text.join (c :: ['\n']) (ts.map (style.indent (depth + 1) ++ ·)) ++
          '\n' :: (style.indent depth ++ [')'])) := by
    simp [enclosed]
  have joined := phrase_join sep hc lines
  rw [shape]
  use front.append (joined.append_cons (by decide) back)
  intro t ht
  have listed := isInfix_tokens_join sep hc lines (List.mem_map.2 ⟨t, ht, rfl⟩)
  rw [tokens_indent_append] at listed
  rw [front.cut, joined.cut _ (by simp [stops])]
  apply listed.trans
  apply List.IsInfix.trans (List.prefix_append _ _).isInfix
  apply (List.suffix_append _ _).isInfix

/-- The lines of quiet items make a piece that repeats the types of the items. -/
theorem piece_interfacePart (hi : ∀ i ∈ items, QuietItem names i) (hk : Phrase names keyword)
    (style : Style) (depth : Nat) :
  Piece names (interfacePart items keyword style depth) ∧
    ∀ i ∈ items, tokens i.type <:+: tokens (interfacePart items keyword style depth)
  := by
  have lines : ∀ t ∈ items.map (·.interfaceLine style (longestName items)), Phrase names t := by
    intro t ht
    obtain ⟨i, mem, rfl⟩ := List.mem_map.1 ht
    apply (hi i mem).interfaceLine
  obtain ⟨piece, part⟩ := piece_enclosed hk (c := ';') (by decide) lines style depth
  use piece.append (t := [';']) (Piece.stop (by decide))
  intro i mem
  rw [interfacePart, show (";".toList : Text) = [';'] from rfl, piece.cut]
  apply ((hi i mem).isInfix_interfaceLine style (longestName items)).trans
  apply (part _ (List.mem_map.2 ⟨i, mem, rfl⟩)).trans
  apply (List.prefix_append _ _).isInfix

/-- The declarations of quiet items as objects make a piece, whose last token is a semicolon if
it has one. -/
theorem piece_declarationPart (hi : ∀ i ∈ items, QuietItem names i) (hk : Phrase names keyword)
    (style : Style) (depth : Nat) :
  Piece names (declarationPart items keyword style depth) ∧
    ∀ m ∈ (tokens (declarationPart items keyword style depth)).getLast?, m = .semicolon
  := by
  rw [declarationPart]
  generalize longestName items = column
  induction items with
  | nil => exact ⟨Piece.nil, by simp⟩
  | cons i items ih =>
    obtain ⟨rest, lastRest⟩ := ih fun i hi' => hi i (List.mem_cons_of_mem _ hi')
    obtain ⟨line, last⟩ := (hi i List.mem_cons_self).declarationLine hk style column
    have whole :
        Piece names (style.indent depth ++ i.declarationLine keyword style column ++ "\n") :=
      ((piece_indent style depth).append line).append (Piece.stop (by decide))
    have read : tokens (style.indent depth ++ i.declarationLine keyword style column ++ "\n") =
        tokens (i.declarationLine keyword style column) := by
      rw [List.append_assoc, tokens_indent_append, line.cut]
      apply List.append_nil
    rw [List.flatMap_cons]
    use whole.append rest
    rw [whole.cut, read, List.getLast?_append, last]
    intro m hm
    rw [Option.mem_def, Option.or_eq_some_iff] at hm
    rcases hm with hm | ⟨-, hm⟩
    · apply lastRest m hm
    · apply (Option.some.inj hm).symm

/-- The associations of quiet items make a piece, in which each of their names is associated and
no other name is. -/
theorem piece_associationPart (hi : ∀ i ∈ items, QuietItem names i ∧ ¬names i.name.lower)
    (hk : Phrase names keyword) (style : Style) (depth : Nat) :
  Piece names (associationPart items keyword style depth) ∧
    ∀ i ∈ items, associates i.name.lower (tokens (associationPart items keyword style depth))
  := by
  have opening : Phrase names (keyword ++ " map") := by
    apply hk.append (Phrase.of_isCalm (by decide)) (by decide)
  have lines : ∀ t ∈ items.map (·.associationLine style (longestName items)), Phrase names t := by
    intro t ht
    obtain ⟨i, mem, rfl⟩ := List.mem_map.1 ht
    apply (hi i mem).1.associationLine (hi i mem).2
  obtain ⟨piece, part⟩ := piece_enclosed opening (c := ',') (by decide) lines style depth
  use piece
  intro i mem
  apply associates_of_isInfix ((hi i mem).1.associates_associationLine style (longestName items))
  apply part _ (List.mem_map.2 ⟨i, mem, rfl⟩)

theorem piece_unlessEmpty {write : List Item → Text} (h : Piece names (write items)) :
  Piece names (unlessEmpty items write)
  := by
  rw [unlessEmpty]
  split
  · apply Piece.nil
  · apply h

/-! ### Components and instances -/

/-- An entity is quiet when the texts that it keeps are, and the names are not its own. -/
structure QuietEntity (names : Text → Prop) (e : Entity) : Prop where
  genericName : ∀ g ∈ e.generics, ¬names g.name.key
  genericType : ∀ g ∈ e.generics, Quiet names g.type
  genericDefault : ∀ g ∈ e.generics, ∀ d ∈ g.default, Quiet names d
  portName : ∀ p ∈ e.ports, ¬names p.name.key
  portSubtype : ∀ p ∈ e.ports, Phrase names p.subtype
  portDefault : ∀ p ∈ e.ports, ∀ d ∈ p.default, Quiet names d
  rightBound : ∀ p ∈ e.ports, ∀ r ∈ p.range, Quiet names r.right.text

variable {e : Entity}

namespace QuietEntity

/-- A generic of a quiet entity with a quiet value. -/
theorem genericItem (he : QuietEntity names e) {g : Generic} (hg : g ∈ e.generics)
    {value : Option Text} (hv : ∀ v ∈ value, Quiet names v) :
  QuietItem names ((Item.ofGeneric g).withValue value)
  where
  name := g.name.isWord
  type := he.genericType g hg
  head := fun absurd => (absurd rfl).elim
  value := hv

/-- A port of a quiet entity with a quiet value. -/
theorem portItem (he : QuietEntity names e) {p : Port} (hp : p ∈ e.ports) {value : Option Text}
    (hv : ∀ v ∈ value, Quiet names v) :
  QuietItem names ((Item.ofPort p).withValue value)
  where
  name := p.name.isWord
  type := (he.portSubtype p hp).quiet
  head := fun _ => (he.portSubtype p hp).silent.head
  value := hv

theorem genericItems (he : QuietEntity names e) :
  ∀ i ∈ Layout.genericItems e, QuietItem names i ∧ ¬names i.name.lower
  := by
  intro i hi
  obtain ⟨g, hg, rfl⟩ := List.mem_map.1 hi
  use he.genericItem hg (he.genericDefault g hg), he.genericName g hg

theorem portItems (he : QuietEntity names e) :
  ∀ i ∈ Layout.portItems e, QuietItem names i ∧ ¬names i.name.lower
  := by
  intro i hi
  obtain ⟨p, hp, rfl⟩ := List.mem_map.1 hi
  use he.portItem hp (he.portDefault p hp), he.portName p hp

end QuietEntity

theorem tokens_text (n : Identifier) :
  tokens n.text = [.word n.key]
  := by
  rw [tokens_word n.isWord.forall_mem, IsWord.wordToken_lower n.isWord]
  rfl

/-- The clause of a component declaration that declares quiet items, on lines of its own. -/
theorem piece_clause (hi : ∀ i ∈ items, QuietItem names i) (hk : Phrase names keyword)
    (style : Style) (depth : Nat) :
  Piece names (unlessEmpty items (interfacePart · keyword style depth ++ "\n")) ∧
    ∀ i ∈ items, tokens i.type <:+:
      tokens (unlessEmpty items (interfacePart · keyword style depth ++ "\n"))
  := by
  obtain ⟨piece, part⟩ := piece_interfacePart hi hk style depth
  use piece_unlessEmpty (piece.append (Piece.stop (by decide)))
  intro i mem
  rw [unlessEmpty, if_neg (List.ne_nil_of_mem mem), piece.cut]
  apply (part i mem).trans (List.prefix_append _ _).isInfix

/-- Behind the name of a quiet entity its component declaration goes on with a piece that repeats
the subtypes of the ports. -/
theorem exists_clauses (he : QuietEntity names e) (style : Style) (depth : Nat) :
  ∃ clauses, component e style depth =
      style.indent depth ++ "component " ++ e.name.text ++ ['\n'] ++ clauses ∧
    Piece names clauses ∧ ∀ p ∈ e.ports, tokens p.subtype <:+: tokens clauses
  := by
  obtain ⟨generics, -⟩ := piece_clause (fun i hi => (he.genericItems i hi).1)
    (Phrase.of_isCalm (t := "generic") (by decide)) style (depth + 1)
  obtain ⟨ports, part⟩ := piece_clause (fun i hi => (he.portItems i hi).1)
    (Phrase.of_isCalm (t := "port") (by decide)) style (depth + 1)
  have close : Piece names (style.indent depth ++ "end component;\n") :=
    (piece_indent style depth).append (Piece.of_isPlain (by decide))
  refine ⟨_, ?_, generics.append (ports.append close), ?_⟩
  · simp [component]
  · intro p hp
    apply (part (Item.ofPort p) (List.mem_map.2 ⟨p, hp, rfl⟩)).trans
    rw [generics.cut, ports.cut]
    apply List.IsInfix.trans (List.prefix_append _ _).isInfix (List.suffix_append _ _).isInfix

/-- The component declaration of a quiet entity is a piece, which begins with the word for
components and the name of the entity and repeats the subtypes of the ports. -/
theorem piece_component (he : QuietEntity names e) (style : Style) (depth : Nat) :
  Piece names (component e style depth) ∧
    [.word "component", .word e.name.key] <+: tokens (component e style depth) ∧
    ∀ p ∈ e.ports, tokens p.subtype <:+: tokens (component e style depth)
  := by
  obtain ⟨clauses, shape, piece, part⟩ := exists_clauses he style depth
  have word : Phrase names e.name.text := Phrase.word e.name.isWord.forall_mem
  have opening : Piece names (style.indent depth ++ "component ") :=
    (piece_indent style depth).append (Piece.of_isPlain (by decide))
  have front : Piece names (style.indent depth ++ "component " ++ e.name.text ++ ['\n']) :=
    (opening.append_phrase word).append_stop (by decide)
  have heading : tokens (style.indent depth ++ "component ") = [.word "component"] := by
    rw [tokens_indent_append]
    decide
  have read : tokens (component e style depth) =
      [.word "component", .word e.name.key] ++ tokens clauses := by
    rw [shape, front.cut, (opening.append_phrase word).cut _ (by decide), opening.cut, heading,
      tokens_text]
    rfl
  refine ⟨?_, ?_, ?_⟩
  · rw [shape]
    apply front.append piece
  · rw [read]
    apply List.prefix_append
  · intro p hp
    rw [read]
    apply (part p hp).trans (List.suffix_append _ _).isInfix

/-- The associations of an instance, which begin on a new line. -/
theorem piece_map (hi : ∀ i ∈ items, QuietItem names i ∧ ¬names i.name.lower)
    (hk : Phrase names keyword) (style : Style) (depth : Nat) :
  Piece names (unlessEmpty items ("\n" ++ associationPart · keyword style depth)) ∧
    (∀ c ∈ (unlessEmpty items ("\n" ++ associationPart · keyword style depth)).head?, c ∈ stops) ∧
    ∀ i ∈ items, associates i.name.lower
      (tokens (unlessEmpty items ("\n" ++ associationPart · keyword style depth)))
  := by
  obtain ⟨piece, mapped⟩ := piece_associationPart hi hk style depth
  have feed : Piece names ['\n'] := Piece.stop (by decide)
  refine ⟨piece_unlessEmpty (feed.append piece), ?_, ?_⟩
  · rw [unlessEmpty]
    split
    · simp
    · simp [stops]
  · intro i hi'
    rw [unlessEmpty, if_neg (List.ne_nil_of_mem hi')]
    apply associates_of_isInfix (mapped i hi')
    rw [show ("\n".toList : Text) = ['\n'] from rfl, feed.cut]
    apply (List.suffix_append _ _).isInfix

/-- Behind the name of a quiet entity its instance goes on with a piece that begins with a stop and
associates each port. -/
theorem exists_maps (he : QuietEntity names e) (label : Text) (style : Style) (depth : Nat) :
  ∃ maps, instantiation e label style depth =
      style.indent depth ++ label ++ [' ', ':', ' '] ++ (e.name.text ++ maps) ∧
    maps ≠ [] ∧ Piece names maps ∧ (∀ c ∈ maps.head?, c ∈ stops) ∧
    ∀ p ∈ e.ports, associates p.name.key (tokens maps)
  := by
  obtain ⟨generics, firstGenerics, -⟩ :=
    piece_map he.genericItems (Phrase.of_isCalm (t := "generic") (by decide)) style (depth + 1)
  obtain ⟨ports, firstPorts, mapped⟩ :=
    piece_map he.portItems (Phrase.of_isCalm (t := "port") (by decide)) style (depth + 1)
  have close : Piece names [';', '\n'] := (Piece.stop (by decide)).append (Piece.stop (by decide))
  refine ⟨_, ?_, ?_, generics.append (ports.append close), ?_, ?_⟩
  · simp [instantiation]
  · simp
  · intro c hc
    rw [List.head?_append, List.head?_append, Option.mem_def, Option.or_eq_some_iff,
      Option.or_eq_some_iff] at hc
    rcases hc with hc | ⟨-, hc | ⟨-, hc⟩⟩
    · apply firstGenerics c hc
    · apply firstPorts c hc
    · obtain rfl : ';' = c := Option.some.inj hc
      decide
  · intro p hp
    apply associates_of_isInfix (mapped (Item.ofPort p) (List.mem_map.2 ⟨p, hp, rfl⟩))
    rw [generics.cut, ports.cut]
    apply List.IsInfix.trans (List.prefix_append _ _).isInfix (List.suffix_append _ _).isInfix

/-- The instance of a quiet entity under a label is a piece, in which a colon stands before the
name of the entity and each port is associated. -/
theorem piece_instantiation (he : QuietEntity names e) {label : Text}
    (hl : ∀ c ∈ label, isWordChar c) (style : Style) (depth : Nat) :
  Piece names (instantiation e label style depth) ∧
    [.colon, .word e.name.key] <:+: tokens (instantiation e label style depth) ∧
    ∀ p ∈ e.ports, associates p.name.key (tokens (instantiation e label style depth))
  := by
  obtain ⟨maps, shape, ne, piece, first, mapped⟩ := exists_maps he label style depth
  have word : Phrase names e.name.text := Phrase.word e.name.isWord.forall_mem
  have labelled : Phrase names (style.indent depth ++ label) :=
    (piece_indent style depth).append_phrase (Phrase.word hl)
  have front : Piece names (style.indent depth ++ label ++ [' ', ':', ' ']) :=
    labelled.append_cons (by decide) (Piece.of_isPlain (by decide))
  have heading : tokens (style.indent depth ++ label ++ [' ', ':', ' ']) =
      tokens (style.indent depth ++ label) ++ [.colon] := by
    rw [labelled.cut _ (by decide)]
    rfl
  have read : tokens (instantiation e label style depth) =
      tokens (style.indent depth ++ label) ++ [.colon] ++ ([.word e.name.key] ++ tokens maps) := by
    rw [shape, front.cut, heading, word.cut _ first, tokens_text]
  refine ⟨?_, ?_, ?_⟩
  · rw [shape]
    apply front.append (word.append_piece piece ne first)
  · rw [read]
    use tokens (style.indent depth ++ label), tokens maps
    simp
  · intro p hp
    rw [read]
    apply associates_of_isInfix (mapped p hp)
    rw [← List.append_assoc]
    apply (List.suffix_append _ _).isInfix

end Testbench.Check
