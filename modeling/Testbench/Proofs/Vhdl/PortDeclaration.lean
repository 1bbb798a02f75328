import Testbench.Proofs.Vhdl.Clause

/-!
# The grammar of port declarations

A declaration of ports is written as `names : mode type (range) := default`, where the mode, the
range and the default may be missing.  The texts of this form are told by a grammar that does not
mention how they are read; `Port.ofDeclaration` reads exactly them, and makes of each name a port
with the mode, the type, the range and the default that are written.
-/

namespace Testbench.Vhdl

open Nesting

variable {t declaration first rest : Text} {prev : Option Char} {default : Option Text}

/-! ### Names of modes and types -/

/-- What is found by its own name, which is in lower case, is found by it in any case. -/
theorem find?_name_eq_some_iff {α : Type} {all : List α} {name : α → Text} {x : α}
    (small : (name x).lower = name x) (found : all.find? (fun y => name y == name x) = some x) :
  all.find? (fun y => name y == t.lower) = some x ↔ t.sameWord (name x)
  := by
  rw [Text.sameWord_iff, small]
  constructor
  · intro h
    have same := List.find?_some h
    rw [beq_iff_eq] at same
    apply same.symm
  · intro h
    rw [h, found]

/-- A mode is found by its name in any case. -/
theorem Mode.ofName?_eq_some_iff {m : Mode} :
  ofName? t = some m ↔ t.sameWord m.name
  := by
  apply find?_name_eq_some_iff <;> cases m <;> decide

/-- A mode is found by its name. -/
@[simp]
theorem Mode.ofName?_name (m : Mode) :
  ofName? m.name = some m
  := ofName?_eq_some_iff.2 (Text.sameWord_self _)

/-- A data type is found by its name in any case. -/
theorem DataType.ofName?_eq_some_iff {d : DataType} :
  ofName? t = some d ↔ t.sameWord d.name
  := by
  apply find?_name_eq_some_iff <;> cases d <;> decide

/-- No type has the name of a mode. -/
theorem DataType.not_sameWord_name (d : DataType) (m : Mode) :
  ¬d.name.sameWord m.name
  := by
  cases d <;> cases m <;> decide

namespace Port

open Declaration

/-! ### The grammar -/

/-- The mode is a word with a gap behind it; without it the ports are inputs. -/
inductive IsModePart : Text → Mode → Prop
  | omitted : IsModePart [] .input
  | written {w g : Text} {m : Mode} : w.sameWord m.name → IsGap g → IsModePart (w ++ g) m

/-- The range is a balanced text in parentheses that is read as a range. -/
inductive IsRangePart : Text → Option Range → Prop
  | absent : IsRangePart [] none
  | written {a s : Text} {r : Range} :
      (∀ c ∈ a, isBlank c) → Balanced s → Range.ofText s = .ok r →
      IsRangePart (a ++ ('(' :: s ++ [')'])) (some r)

/-- The subtype is a mode, the name of a type and a range. -/
inductive IsSubtype : Text → Shape → Prop
  | intro {mode w range : Text} {shape : Shape} :
      IsModePart mode shape.mode → w.sameWord shape.type.name → IsRangePart range shape.range →
      IsSubtype (mode ++ (w ++ range)) shape

/-- Behind the colon of a declaration stand a subtype and a default, with blanks around the
subtype. -/
inductive IsRest : Text → Shape → Option Text → Prop
  | intro {a core b value : Text} {shape : Shape} {default : Option Text} :
      (∀ c ∈ a, isBlank c) → (∀ c ∈ b, isBlank c) → IsSubtype core shape →
      IsDefaultPart value default → IsRest (a ++ core ++ b ++ value) shape default

/-- A declaration consists of names, a colon and what stands behind it, and has a range exactly
if its type is a vector type. -/
inductive IsDeclaration : Text → List Identifier → Shape → Option Text → Prop
  | intro {before rest : Text} {is : List Identifier} {shape : Shape} {default : Option Text} :
      IsNamePart "signal" before is → IsRest rest shape default →
      shape.range.isSome = shape.type.isVector →
      IsDeclaration (before ++ ':' :: rest) is shape default

/-- The port with a name that a declaration with the given shape and default declares. -/
structure Declares (shape : Shape) (default : Option Text) (i : Identifier) (p : Port) : Prop where
  name : p.name = i
  mode : p.mode = shape.mode
  type : p.type = shape.type
  range : p.range = shape.range
  default : p.default = default

/-! ### Reading the mode and the type -/

variable {shape : Shape} {m : Mode} {d : DataType} {r : Option Range}

/-- What is left of a text in front of a word when a mode is read is blanks, and the mode stands
before them, or it is omitted. -/
theorem exists_modePart_of_readMode {indication : Text}
    (read : readMode declaration first t = .ok (m, indication))
    (found : nextWord? indication = some (w, rest)) :
  ∃ a mode, t = a ++ (mode ++ (w ++ rest)) ∧ (∀ c ∈ a, isBlank c) ∧ IsModePart mode m
  := by
  obtain ⟨word, -, b, hb, rfl⟩ := nextWord?_eq_some_iff.1 found
  rw [readMode] at read
  split at read
  · simp at read
  · next w' rest' found' =>
    split at read
    · next m' named =>
      obtain ⟨rfl, rfl⟩ : m' = m ∧ rest' = b ++ (w ++ rest) := by simpa using read
      obtain ⟨-, apart', a, ha, rfl⟩ := nextWord?_eq_some_iff.1 found'
      have gap : IsGap b := by
        refine ⟨?_, hb⟩
        rintro rfl
        apply apart'
        apply word.head_append
      use a, w' ++ b, by simp, ha
      apply IsModePart.written (Mode.ofName?_eq_some_iff.1 named) gap
    · split at read
      · obtain ⟨rfl, rfl⟩ : .input = m ∧ t = b ++ (w ++ rest) := by simpa using read
        use b, [], rfl, hb
        apply IsModePart.omitted
      · split at read <;> simp at read

/-- A mode in front of the name of a type is read, and the name is left. -/
theorem exists_readMode_of_modePart {a mode : Text} (ha : ∀ c ∈ a, isBlank c)
    (hm : IsModePart mode m) (same : w.sameWord d.name) (apart : ¬rest.head?.any isWordChar) :
  ∃ indication, readMode declaration first (a ++ (mode ++ (w ++ rest))) = .ok (m, indication) ∧
    nextWord? indication = some (w, rest)
  := by
  have word : IsWord w := d.isWord_name.of_sameWord same
  cases hm with
  | omitted =>
    have found : nextWord? (a ++ ([] ++ (w ++ rest))) = some (w, rest) :=
      nextWord?_eq_some_iff.2 ⟨word, apart, a, ha, rfl⟩
    have noMode : Mode.ofName? w = none := by
      rw [Option.eq_none_iff_forall_ne_some]
      intro m' named
      apply d.not_sameWord_name m'
      rw [Text.sameWord_iff] at *
      rw [← same]
      apply Text.sameWord_iff.1 (Mode.ofName?_eq_some_iff.1 named)
    refine ⟨_, ?_, found⟩
    rw [readMode, found]
    simp [noMode, DataType.ofName?_eq_some_iff.2 same]
  | @written w' g _ same' gap =>
    have word' : IsWord w' := m.isWord_name.of_sameWord same'
    have found' : nextWord? (a ++ (w' ++ g ++ (w ++ rest))) = some (w', g ++ (w ++ rest)) :=
      nextWord?_eq_some_iff.2 ⟨word', gap.head _, a, ha, by simp⟩
    refine ⟨g ++ (w ++ rest), ?_, ?_⟩
    · rw [readMode, found']
      simp [Mode.ofName?_eq_some_iff.2 same']
    · apply nextWord?_eq_some_iff.2 ⟨word, apart, g, gap.forall_mem, rfl⟩

/-! ### Reading the range -/

/-- The range is read exactly from a range part. -/
theorem exists_readRange_iff :
  (∃ tail, readRange declaration t.trimStart = .ok (r, tail) ∧ tail.trim = []) ↔
    ∃ range b, t = range ++ b ∧ (∀ c ∈ b, isBlank c) ∧ IsRangePart range r
  := by
  simp only [Text.trim_eq_nil_iff]
  constructor
  · rintro ⟨tail, read, blank⟩
    have before : ∀ c ∈ t.takeWhile isBlank, isBlank c := fun c hc => List.mem_takeWhile_imp hc
    rw [← t.takeWhile_append_trimStart]
    rw [readRange.eq_def] at read
    split at read
    · next opened =>
      split at read
      · simp at read
      · next inside behind closing =>
        obtain ⟨rfl, balanced⟩ := splitClosing?_eq_some_iff.1 closing
        split at read
        · next range written =>
          obtain ⟨rfl, rfl⟩ : some range = r ∧ behind = tail := by simpa using read
          rw [opened]
          use t.takeWhile isBlank ++ ('(' :: inside ++ [')']), behind, by simp, blank
          apply IsRangePart.written before balanced written
        · simp at read
    · obtain ⟨rfl, rfl⟩ : none = r ∧ t.trimStart = tail := by simpa using read
      use [], t.takeWhile isBlank ++ t.trimStart, rfl
      refine ⟨?_, IsRangePart.absent⟩
      rw [List.forall_mem_append]
      apply And.intro before blank
  · rintro ⟨range, b, rfl, hb, part⟩
    cases part with
    | absent =>
      have start : Text.trimStart ([] ++ b) = [] := List.dropWhile_eq_nil_iff.2 hb
      rw [start]
      use [], rfl
      simp
    | @written a inside r ha balanced read =>
      have shape : a ++ ('(' :: inside ++ [')']) ++ b = a ++ '(' :: (inside ++ ')' :: b) := by simp
      have closing : splitClosing? (inside ++ ')' :: b) = some (inside, b) :=
        splitClosing?_eq_some_iff.2 ⟨rfl, balanced⟩
      rw [shape, Text.trimStart_append ha, Text.trimStart_cons (by decide)]
      use b
      refine ⟨?_, hb⟩
      simp [readRange, closing, read]

/-! ### Reading the subtype -/

/-- A range part and blanks behind it continue no word. -/
theorem IsRangePart.head {range b : Text} (h : IsRangePart range r) (hb : ∀ c ∈ b, isBlank c) :
  ¬(range ++ b).head?.any isWordChar
  := by
  cases h with
  | absent => apply not_head_isWordChar hb
  | @written a inside r ha _ _ =>
    cases a with
    | nil => simp; decide
    | cons c a => simpa using not_isWordChar_of_isBlank (ha c List.mem_cons_self)

/-- A subtype is read exactly from the text of one between blanks. -/
theorem readSubtype_eq_ok_iff :
  readSubtype declaration first t = .ok shape ↔
    ∃ a core b, t = a ++ core ++ b ∧ (∀ c ∈ a, isBlank c) ∧ (∀ c ∈ b, isBlank c) ∧
      IsSubtype core shape
  := by
  constructor
  · intro h
    simp only [readSubtype, bind_eq_ok, Prod.exists] at h
    obtain ⟨m, indication, modeRead, h⟩ := h
    split at h
    · simp at h
    · next w rest found =>
      split at h
      · simp at h
      · next d typed =>
        simp only [bind_eq_ok, Prod.exists] at h
        obtain ⟨r, tail, rangeRead, h⟩ := h
        split at h
        · next blank =>
          obtain rfl := (Except.ok.inj h).symm
          obtain ⟨a, mode, rfl, ha, hm⟩ := exists_modePart_of_readMode modeRead found
          obtain ⟨range, b, rfl, hb, hr⟩ := exists_readRange_iff.1 ⟨tail, rangeRead, blank⟩
          use a, mode ++ (w ++ range), b, by simp, ha, hb
          apply IsSubtype.intro hm (DataType.ofName?_eq_some_iff.1 typed) hr
        · split at h <;> simp at h
  · rintro ⟨a, core, b, rfl, ha, hb, subtype⟩
    cases subtype with
    | @intro mode w range shape hm same hr =>
      have parts : a ++ (mode ++ (w ++ range)) ++ b = a ++ (mode ++ (w ++ (range ++ b))) := by simp
      obtain ⟨indication, modeRead, found⟩ :=
        exists_readMode_of_modePart ha hm same (hr.head hb)
      obtain ⟨tail, rangeRead, blank⟩ := exists_readRange_iff.2 ⟨range, b, rfl, hb, hr⟩
      rw [parts]
      apply bind_eq_ok.2 ⟨_, modeRead, ?_⟩
      simp only [found, DataType.ofName?_eq_some_iff.2 same]
      apply bind_eq_ok.2 ⟨_, rangeRead, if_pos blank⟩

/-! ### Texts of subtypes -/

/-- A mode holds word characters and blanks only. -/
theorem IsModePart.forall_mem (h : IsModePart t m) :
  ∀ c ∈ t, isWordChar c ∨ isBlank c
  := by
  cases h with
  | omitted => simp
  | written same gap =>
    intro c hc
    rcases List.mem_append.1 hc with hc | hc
    · exact Or.inl ((m.isWord_name.of_sameWord same).forall_mem c hc)
    · exact Or.inr (gap.forall_mem c hc)

/-- Modes are balanced. -/
theorem IsModePart.balanced (h : IsModePart t m) :
  Balanced t
  := by
  apply Balanced.of_isPlain
  intro c hc
  rcases h.forall_mem c hc with word | blank
  · exact isPlain_of_isWordChar word
  · exact isPlain_of_isBlank blank

/-- A mode in front of a word begins with a word. -/
theorem IsModePart.head {w : Text} (h : IsModePart t m) (hw : IsWord w) (r : Text) :
  (t ++ (w ++ r)).head?.any isWordChar
  := by
  cases h with
  | omitted => apply hw.head_append
  | @written w' g _ same _ =>
    rw [List.append_assoc]
    apply (m.isWord_name.of_sameWord same).head_append

/-- Ranges are balanced. -/
theorem IsRangePart.balanced (h : IsRangePart t r) :
  Balanced t
  := by
  cases h with
  | absent => apply Balanced.nil
  | written ha balanced _ =>
    apply (Balanced.of_isPlain _).append balanced.parenthesized
    intro c hc
    apply isPlain_of_isBlank (ha c hc)

/-- Ranges have no assignment at the outer level. -/
theorem IsRangePart.misses (h : IsRangePart t r) :
  Misses isAssignmentAt outer prev t rest
  := by
  cases h with
  | absent => trivial
  | @written a _ _ ha balanced _ =>
    rw [misses_append, after_of_isBlank ha]
    use misses_isAssignmentAt_of_isBlank ha
    apply balanced.misses_parenthesis
    simp [isAssignmentAt]

/-- A range behind a word ends with no blank. -/
theorem IsRangePart.not_isBlank_last {w : Text} (h : IsRangePart t r) (hw : IsWord w) :
  ∀ c ∈ (w ++ t).getLast?, ¬isBlank c
  := by
  cases h with
  | absent =>
    rw [List.append_nil]
    apply (Text.trim_eq_self_iff.1 hw.trim).2
  | @written a inside _ _ _ _ =>
    have shape : w ++ (a ++ ('(' :: inside ++ [')'])) = (w ++ (a ++ '(' :: inside)) ++ [')'] := by
      simp
    rw [shape, List.getLast?_concat]
    decide

/-- Subtypes are balanced. -/
theorem IsSubtype.balanced (h : IsSubtype t shape) :
  Balanced t
  := by
  obtain ⟨hm, same, hr⟩ := h
  have word := shape.type.isWord_name.of_sameWord same
  apply hm.balanced.append (word.balanced.append hr.balanced)

/-- A subtype between blanks leaves the nesting at the outer level. -/
theorem IsSubtype.after {a b : Text} (h : IsSubtype t shape) (ha : ∀ c ∈ a, isBlank c)
    (hb : ∀ c ∈ b, isBlank c) :
  outer.after (a ++ t ++ b) = outer
  := by
  rw [after_append, after_append, after_of_isBlank ha, h.balanced.after, after_of_isBlank hb]

/-- Subtypes have no assignment at the outer level. -/
theorem IsSubtype.misses (h : IsSubtype t shape) :
  Misses isAssignmentAt outer prev t rest
  := by
  obtain ⟨hm, same, hr⟩ := h
  have word := shape.type.isWord_name.of_sameWord same
  have colon : ¬isWordChar ':' ∧ ¬isBlank ':' := by decide
  rw [misses_append, hm.balanced.after, misses_append, word.balanced.after]
  refine ⟨misses_isAssignmentAt_of_not_mem fun mem => ?_, ?_, hr.misses⟩
  · rcases hm.forall_mem ':' mem with word | blank
    · exact colon.1 word
    · exact colon.2 blank
  · apply misses_isAssignmentAt_of_not_mem (word.not_mem colon.1)

/-- Subtypes begin with a word. -/
theorem IsSubtype.head (h : IsSubtype t shape) (r : Text) :
  (t ++ r).head?.any isWordChar
  := by
  obtain ⟨hm, same, -⟩ := h
  rw [List.append_assoc, List.append_assoc]
  apply hm.head (shape.type.isWord_name.of_sameWord same)

/-- Subtypes neither begin nor end with a blank. -/
theorem IsSubtype.trim (h : IsSubtype t shape) :
  t.trim = t
  := by
  rw [Text.trim_eq_self_iff]
  have starts := h.head []
  rw [List.append_nil] at starts
  use not_isBlank_of_head starts
  obtain ⟨hm, same, hr⟩ := h
  have word := shape.type.isWord_name.of_sameWord same
  rw [List.getLast?_append_of_ne_nil _ (by simp [word.ne_nil])]
  apply hr.not_isBlank_last word

/-- What stands behind the colon of a declaration begins with no equals sign. -/
theorem IsRest.head (h : IsRest t shape default) :
  t.head? ≠ some '='
  := by
  cases h with
  | @intro a core b value _ _ ha hb subtype hv =>
    intro found
    cases a with
    | nil =>
      have starts := subtype.head (b ++ value)
      rw [List.nil_append, List.append_assoc] at found
      rw [found] at starts
      exact absurd starts (by decide)
    | cons c a =>
      obtain rfl : c = '=' := by simpa using found
      exact absurd (ha '=' List.mem_cons_self) (by decide)

/-! ### Reading declarations -/

/-- What stands behind the colon of a declaration is read exactly from a subtype and a default. -/
theorem exists_splitDefault_iff :
  (∃ subtype, splitDefault t = .ok (subtype, default) ∧
    readSubtype declaration first subtype = .ok shape) ↔ IsRest t shape default
  := by
  simp only [readSubtype_eq_ok_iff]
  constructor
  · rintro ⟨subtype, parts, a, core, b, rfl, ha, hb, read⟩
    obtain ⟨s, value, rfl, trimmed, hv⟩ := exists_of_splitDefault parts
    obtain ⟨a', b', ha', hb', whole⟩ := s.exists_blanks_trim
    have shape : s ++ value = (a' ++ a) ++ core ++ (b ++ b') ++ value := by
      rw [← whole, trimmed]
      simp
    rw [shape]
    apply IsRest.intro _ _ read hv
    · rw [List.forall_mem_append]
      apply And.intro ha' ha
    · rw [List.forall_mem_append]
      apply And.intro hb hb'
  · intro h
    cases h with
    | @intro a core b value _ _ ha hb subtype hv =>
      have misses : Misses isAssignmentAt outer none (a ++ core ++ b) [] := by
        rw [misses_append, misses_append, after_append, after_of_isBlank ha, subtype.balanced.after]
        use ⟨misses_isAssignmentAt_of_isBlank ha, subtype.misses⟩
        apply misses_isAssignmentAt_of_isBlank hb
      use core
      rw [splitDefault_of_isDefaultPart hv misses (subtype.after ha hb),
        Text.trim_blanks_append subtype.trim ha hb]
      use rfl, [], core, [], by simp, by simp, by simp, subtype

/-- The parts of a port make it up exactly if it is what a declaration with these parts
declares. -/
theorem ofParts_eq_ok_iff_declares {i : Identifier} {p : Port} :
  ofParts i shape.mode shape.type shape.range default = .ok p ↔ Declares shape default i p
  := by
  rw [ofParts_eq_ok_iff]
  constructor
  · rintro ⟨name, mode, type, range, value⟩
    use name, mode, type, range, value
  · rintro ⟨name, mode, type, range, value⟩
    use name, mode, type, range, value

/-- The ports that are read from a declaration are exactly those that the grammar finds there. -/
theorem ofDeclaration_eq_ok_iff {ports : List Port} :
  ofDeclaration t = .ok ports ↔
    ∃ is shape default, IsDeclaration t is shape default ∧
      List.Forall₂ (Declares shape default) is ports
  := by
  simp only [ofDeclaration, bind_eq_ok, mapError_eq_ok, mapM_eq_ok, ofParts_eq_ok_iff_declares,
    Prod.exists]
  constructor
  · rintro ⟨before, rest, parted, is, named, subtype, default, parts, shape, read, made⟩
    obtain ⟨_, rfl, -, names⟩ :=
      (exists_splitNames_iff isWord_signal).1 ⟨before, parted, named⟩
    refine ⟨is, shape, default, IsDeclaration.intro names ?_ ?_, made⟩
    · apply exists_splitDefault_iff.1 ⟨subtype, parts, read⟩
    · obtain ⟨i, is, rfl⟩ := names.exists_cons
      obtain ⟨p, ports, declares, -, rfl⟩ := List.forall₂_cons_left_iff.1 made
      rw [← declares.range, ← declares.type]
      apply p.range_isSome
  · rintro ⟨is, shape, default, declaration, made⟩
    cases declaration with
    | @intro before rest _ _ _ names behind _ =>
      obtain ⟨_, parted, named⟩ := (exists_splitNames_iff isWord_signal).2
        ⟨before, rfl, behind.head, names⟩
      obtain ⟨subtype, parts, read⟩ := exists_splitDefault_iff.2 behind
      exact ⟨_, rest, parted, is, named, subtype, default, parts, shape, read, made⟩

/-- A clause with one declaration is read exactly if the declaration is one of the grammar, and
then gives its ports in order and no others. -/
theorem ofBody_clauseText_eq_ok_iff (h : IsMember t) {ports : List Port} :
  ofBody (clauseText "port" t) = .ok ports ↔
    ∃ is shape default, IsDeclaration t is shape default ∧
      List.Forall₂ (Declares shape default) is ports
  := by
  rw [ofBody_eq_readClause, readClause_single isWord_port h.toIsPart, readOne, h.trim,
    if_pos h.ne_nil]
  apply ofDeclaration_eq_ok_iff

/-- A declaration of two ports in which blanks, commas, parentheses and letters in either case
stand wherever they may. -/
def busText : Text := "SIGNAL u , v: InOut Signed (f(1, 2) TO 9) := (0 => ';')"

/-- What is said in `busText` about the ports. -/
def busShape : Shape := ⟨.inout, .signed, some ⟨.expr "f(1, 2)", .int 9, .up⟩⟩

/-- The ports that are declared in `busText`. -/
def busPorts : List Port :=
  [⟨⟨"u", by decide⟩, .inout, .signed, busShape.range, some "(0 => ';')", rfl⟩,
    ⟨⟨"v", by decide⟩, .inout, .signed, busShape.range, some "(0 => ';')", rfl⟩]

/-- The declaration is one of the grammar. -/
theorem isDeclaration_busText :
  IsDeclaration busText (busPorts.map name) busShape (some "(0 => ';')")
  := by
  have list : IsNameList (['u', ' '] ++ ',' :: [' ', 'v']) (busPorts.map name) :=
    IsNameList.cons (isName_iff.2 (by decide)) (IsNameList.one (isName_iff.2 (by decide)))
  have signal : IsClassPart "signal" ([] ++ ("SIGNAL".toList ++ [' '])) :=
    IsClassPart.intro (by decide) (by decide) ⟨by decide, by decide⟩
  have names := IsNamePart.classed signal list
  have mode : IsModePart ("InOut" ++ [' ']) busShape.mode :=
    IsModePart.written (by decide) ⟨by decide, by decide⟩
  have range : IsRangePart ([' '] ++ ('(' :: "f(1, 2) TO 9" ++ [')'])) busShape.range :=
    IsRangePart.written (by decide) (by decide) (by decide)
  have subtype := IsSubtype.intro (w := "Signed") mode (by decide) range
  have value : IsDefaultPart (':' :: '=' :: " (0 => ';')".toList) (some "(0 => ';')") :=
    IsDefaultPart.assigned (by decide)
  have rest := IsRest.intro (a := [' ']) (b := [' ']) (by decide) (by decide) subtype value
  exact IsDeclaration.intro names rest rfl

theorem isMember_busText :
  IsMember busText
  := ⟨by decide, by decide, by decide⟩

theorem ofBody_busText :
  ofBody (clauseText "port" busText) = .ok busPorts
  := by
  apply (ofBody_clauseText_eq_ok_iff isMember_busText).2
  refine ⟨_, _, _, isDeclaration_busText, ?_⟩
  rw [List.forall₂_map_left_iff, List.forall₂_same]
  intro p hp
  rcases List.mem_pair.1 hp with rfl | rfl <;> exact ⟨rfl, rfl, rfl, rfl, rfl⟩

end Port

end Testbench.Vhdl
