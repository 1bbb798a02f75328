import Testbench.Proofs.Bench.Assembly
import Testbench.Proofs.Check.Interchange
import Testbench.Proofs.Vhdl.Verbatim

/-!
# Styles and tokens

A bench has the same tokens in every style: the styles change only the spaces at the starts of
lines and between names and the marks behind them, and none of these is seen.
-/

namespace Testbench.Check

open Text Vhdl Layout Stimulus Bench

variable {i : Item} {items : List Item} {style style' : Style} {depth column : Nat}
  {w s t u m opening separator : Text} {ts ts' : List Text} {e : Entity} {c : Char}

/-! ### Items -/

/-- The spaces between a word and a colon or an arrow are not seen. -/
theorem interchangeable_heading (hw : IsWord w) (hc : c = ':' ∨ c = '=') (p p' : Placement)
    (column : Nat) (r : Text) :
  Interchangeable (w ++ p.padding column w ++ c :: r) (w ++ p'.padding column w ++ c :: r)
  := by
  have same : Interchangeable (w ++ p.padding column w ++ [c]) (w ++ p'.padding column w ++ [c]) :=
    (interchangeable_padding hw.last hc _).trans (interchangeable_padding hw.last hc _).symm
  have whole := same.append_right r
  rwa [List.append_assoc _ [c], List.append_assoc _ [c]] at whole

theorem interchangeable_interfaceLine (hi : IsWord i.name) (style style' : Style) (column : Nat) :
  Interchangeable (i.interfaceLine style column) (i.interfaceLine style' column)
  := by
  have heading := interchangeable_heading hi (.inl rfl) style.types style'.types column [' ']
  apply ((heading.append_right i.modePart).append_right i.type).append_right i.assignment

theorem interchangeable_declarationLine (hi : IsWord i.name) (keyword : Text)
    (style style' : Style) (column : Nat) :
  Interchangeable (i.declarationLine keyword style column) (i.declarationLine keyword style' column)
  := by
  have heading := interchangeable_heading hi (.inl rfl) style.types style'.types column
    (' ' :: i.type ++ i.assignment ++ [';'])
  have whole := heading.append_left (keyword ++ [' '])
  simp only [Item.declarationLine, List.append_assoc] at whole ⊢
  exact whole

theorem interchangeable_associationLine (hi : IsWord i.name) (style style' : Style)
    (column : Nat) :
  Interchangeable (i.associationLine style column) (i.associationLine style' column)
  := by
  have heading :=
    interchangeable_heading hi (.inr rfl) style.mappings style'.mappings column ['>', ' ']
  apply heading.append_right i.name

/-! ### Lists of items -/

theorem lines_indent (h : Interchangeable s t) (style style' : Style) (depth : Nat) :
  Lines (style.indent depth ++ s ++ "\n") (style'.indent depth ++ t ++ "\n")
  := Lines.of_behindLineEnd (BehindLineEnd.indent h _ _)

/-- Indented lines with a separator between them are interchangeable when the lines are. -/
theorem behindLineEnd_join (h : List.Forall₂ Interchangeable ts ts') (separator : Text)
    (style style' : Style) (depth : Nat) :
  BehindLineEnd (join (separator ++ "\n") (ts.map (style.indent depth ++ ·)))
    (join (separator ++ "\n") (ts'.map (style'.indent depth ++ ·)))
  := by
  induction h with
  | nil => apply Interchangeable.refl
  | cons here rest ih =>
    cases rest with
    | nil =>
      simp only [List.map_cons, List.map_nil, join, List.intercalate_singleton]
      apply BehindLineEnd.indent here
    | cons next more =>
      have first := lines_indent (here.append_right separator) style style' depth
      have whole := first.append_behindLineEnd ih
      simp only [List.map_cons, join, List.intercalate_cons_cons, List.append_assoc] at whole ⊢
      exact whole

theorem behindLineEnd_enclosed (h : List.Forall₂ Interchangeable ts ts') (opening separator : Text)
    (style style' : Style) (depth : Nat) :
  BehindLineEnd (enclosed opening separator ts style depth)
    (enclosed opening separator ts' style' depth)
  := by
  have first := lines_indent (.refl (opening ++ " (")) style style' depth
  have middle := Lines.of_behindLineEnd
    (behindLineEnd_join h separator style style' (depth + 1))
  have last := BehindLineEnd.indent (.refl [')']) (style.tab * depth) (style'.tab * depth)
  have whole := (first.append middle).append_behindLineEnd last
  simp only [enclosed, List.append_assoc] at whole ⊢
  exact whole

/-- The lines of items are interchangeable in all styles. -/
theorem forall₂_lines {line line' : Item → Text} (items : List Item)
    (h : ∀ i ∈ items, Interchangeable (line i) (line' i)) :
  List.Forall₂ Interchangeable (items.map line) (items.map line')
  := by
  rw [List.forall₂_map_left_iff, List.forall₂_map_right_iff, List.forall₂_same]
  exact h

/-- The clause for a list of items that may be there. -/
theorem lines_interfacePart (hi : ∀ i ∈ items, IsWord i.name) (keyword : Text)
    (style style' : Style) (depth : Nat) :
  Lines (unlessEmpty items (interfacePart · keyword style depth ++ "\n"))
    (unlessEmpty items (interfacePart · keyword style' depth ++ "\n"))
  := by
  rw [unlessEmpty, unlessEmpty]
  split
  · apply Lines.nil
  · apply Lines.of_behindLineEnd
    apply BehindLineEnd.append _ (.refl [';'])
    apply behindLineEnd_enclosed
    apply forall₂_lines
    intro i mem
    apply interchangeable_interfaceLine (hi i mem)

theorem lines_declarationPart (hi : ∀ i ∈ items, IsWord i.name) (keyword : Text)
    (style style' : Style) (depth : Nat) :
  Lines (declarationPart items keyword style depth) (declarationPart items keyword style' depth)
  := by
  rw [declarationPart, declarationPart, List.flatMap_def, List.flatMap_def]
  apply Lines.flatten
  rw [List.forall₂_map_left_iff, List.forall₂_map_right_iff, List.forall₂_same]
  intro i mem
  apply lines_indent (interchangeable_declarationLine (hi i mem) keyword style style' _)

/-- A list of associations that may be there is interchangeable on a line of its own. -/
theorem interchangeable_associationPart (hi : ∀ i ∈ items, IsWord i.name) (keyword : Text)
    (style style' : Style) (depth : Nat) :
  Interchangeable (unlessEmpty items ("\n" ++ associationPart · keyword style depth))
    (unlessEmpty items ("\n" ++ associationPart · keyword style' depth))
  := by
  rw [unlessEmpty, unlessEmpty]
  split
  · apply Interchangeable.refl
  · apply behindLineEnd_enclosed
    apply forall₂_lines
    intro i mem
    apply interchangeable_associationLine (hi i mem)

/-! ### Components and instances -/

theorem isWord_of_mem_genericItems (h : i ∈ genericItems e) :
  IsWord i.name
  := by
  obtain ⟨g, -, rfl⟩ := List.mem_map.1 h
  exact g.name.isWord

theorem isWord_of_mem_portItems (h : i ∈ portItems e) :
  IsWord i.name
  := by
  obtain ⟨p, -, rfl⟩ := List.mem_map.1 h
  exact p.name.isWord

theorem lines_component (e : Entity) (style style' : Style) (depth : Nat) :
  Lines (component e style depth) (component e style' depth)
  := by
  have first := lines_indent (.refl ("component " ++ e.name.text)) style style' depth
  have generics := lines_interfacePart (fun i => isWord_of_mem_genericItems (e := e)) "generic"
    style style' (depth + 1)
  have ports := lines_interfacePart (fun i => isWord_of_mem_portItems (e := e)) "port"
    style style' (depth + 1)
  have last := lines_indent (.refl "end component;") style style' depth
  have whole := ((first.append generics).append ports).append last
  simp only [component, List.append_assoc] at whole ⊢
  exact whole

theorem lines_instantiation (e : Entity) (label : Text) (style style' : Style) (depth : Nat) :
  Lines (instantiation e label style depth) (instantiation e label style' depth)
  := by
  have generics := interchangeable_associationPart
    (fun i => isWord_of_mem_genericItems (e := e)) "generic" style style' (depth + 1)
  have ports := interchangeable_associationPart
    (fun i => isWord_of_mem_portItems (e := e)) "port" style style' (depth + 1)
  have whole := lines_indent
    (((generics.append ports).append_left (label ++ " : " ++ e.name.text)).append_right ";")
    style style' depth
  simp only [instantiation, List.append_assoc] at whole ⊢
  exact whole

/-! ### Statements -/

theorem lines_line (style style' : Style) (depth : Nat) (t : Text) :
  Lines (line style depth t) (line style' depth t)
  := lines_indent (.refl t) style style' depth

theorem agree_assign (style style' : Style) (depth : Nat) (p : Port) (v : Value) :
  Agree Eq Lines (assign style depth p v) (assign style' depth p v)
  := by
  rw [assign.eq_def, assign.eq_def]
  apply Agree.bind (Agree.refl (render v p))
  rintro whole _ rfl
  apply Agree.ok
  apply (lines_line style style' depth _).append
  cases v with
  | setBit index => apply lines_line
  | _ => apply Lines.nil

theorem lines_process (h : Lines s t) (style style' : Style) (label : Text) :
  Lines (process style label s) (process style' label t)
  := by
  have line := lines_line style style'
  apply (((line 1 _).append (line 1 _)).append h |>.append (line 2 _)).append (line 1 _)

/-! ### Processes -/

variable {roles : Roles} {plan : Plan}

theorem lines_wait (style style' : Style) (depth : Nat) (d : Delay) :
  Lines (wait style depth d) (wait style' depth d)
  := lines_line style style' depth _

theorem agree_clockProcess (e : Entity) (style style' : Style) (settings : Settings) (done : Text)
    (p : Port) :
  Agree Eq Lines (clockProcess e style settings done p) (clockProcess e style' settings done p)
  := by
  rw [clockProcess, clockProcess]
  apply Agree.bind (agree_assign style style' 3 p _)
  intro low low' hlow
  apply Agree.bind (agree_assign style style' 3 p _)
  intro high high' hhigh
  apply Agree.ok
  apply lines_process
  have half := lines_wait style style' 3 settings.clockHalfPeriod
  apply (((((lines_line style style' 2 _).append hlow).append half).append hhigh).append
    half).append
  apply lines_line

theorem agree_resetProcess (e : Entity) (style style' : Style) (settings : Settings)
    (activeLow : Bool) (p : Port) :
  Agree Eq Lines (resetProcess e style settings activeLow p)
    (resetProcess e style' settings activeLow p)
  := by
  rw [resetProcess, resetProcess]
  apply Agree.bind (agree_assign style style' 2 p _)
  intro active active' hactive
  apply Agree.bind (agree_assign style style' 2 p _)
  intro released released' hreleased
  apply Agree.ok
  apply lines_process
  apply (hactive.append (lines_wait ..)).append hreleased

theorem agree_startStatements (e : Entity) (style style' : Style) (roles : Roles) :
  Agree Eq Lines (startStatements e style roles) (startStatements e style' roles)
  := by
  rw [startStatements.eq_def, startStatements.eq_def]
  split
  · rw [awaitReset, awaitReset]
    apply Agree.bind (Agree.refl _)
    rintro released _ rfl
    apply Agree.ok (lines_line ..)
  · apply Agree.ok Lines.nil

theorem agree_combinationRows (ports : List Port) (style style' : Style) (delay : Delay) (n : Nat)
    (rows : List (List Value)) :
  Agree Eq Lines (combinationRows ports style delay n rows)
    (combinationRows ports style' delay n rows)
  := by
  induction rows generalizing n with
  | nil => apply Agree.ok Lines.nil
  | cons values more ih =>
    rw [combinationRows, combinationRows]
    apply Agree.bind (Agree.mapM fun s _ => agree_assign style style' 2 s.1 s.2)
    intro assigned assigned' hassigned
    apply Agree.bind (ih (n + 1))
    intro rest rest' hrest
    apply Agree.ok
    apply Lines.append _ hrest
    apply Lines.append _ (lines_wait ..)
    apply (lines_line ..).append (Lines.flatten hassigned)

theorem agree_tableStatements (e : Entity) (style style' : Style) (plan : Plan) :
  Agree Eq Lines (tableStatements e style plan) (tableStatements e style' plan)
  := by
  rw [tableStatements.eq_def, tableStatements.eq_def]
  split
  · apply agree_combinationRows
  · apply Agree.ok Lines.nil

theorem agree_sequenceStatements (style style' : Style) (p : Port) (steps : List Step) :
  Agree Eq Lines (sequenceStatements style p steps) (sequenceStatements style' p steps)
  := by
  have step : ∀ s ∈ steps, Agree Eq Lines
      (do return (← assign style 2 p s.value) ++ wait style 2 s.delay)
      (do return (← assign style' 2 p s.value) ++ wait style' 2 s.delay) := by
    intro s _
    apply Agree.bind (agree_assign style style' 2 p s.value)
    intro assigned assigned' hassigned
    apply Agree.ok (hassigned.append (lines_wait ..))
  rw [sequenceStatements, sequenceStatements]
  apply Agree.bind (Agree.mapM step)
  intro assigned assigned' hassigned
  apply Agree.ok
  apply (lines_line style style' 2 _).append (Lines.flatten hassigned)

theorem agree_stimulusProcess (e : Entity) (style style' : Style) (roles : Roles) (plan : Plan)
    (done : Text) :
  Agree Eq Lines (stimulusProcess e style roles plan done)
    (stimulusProcess e style' roles plan done)
  := by
  rw [stimulusProcess_eq, stimulusProcess_eq]
  apply Agree.bind (agree_startStatements e style style' roles)
  intro start start' hstart
  apply Agree.bind (agree_tableStatements e style style' plan)
  intro table table' htable
  apply Agree.bind (Agree.mapM fun s _ => agree_sequenceStatements style style' s.1 s.2)
  intro sequences sequences' hsequences
  apply Agree.ok
  apply lines_process
  apply ((hstart.append htable).append (Lines.flatten hsequences)).append (lines_line ..)

theorem agree_paragraph {write write' : Port → Except Bench.Error Text} (e : Entity)
    (index : Option Nat) (h : ∀ p, Agree Eq Lines (write p) (write' p)) :
  Agree Eq Lines (paragraph e index write) (paragraph e index write')
  := by
  rw [paragraph.eq_def, paragraph.eq_def]
  split
  · next p _ =>
    apply (h p).map
    intro s t lines
    apply (Lines.refl (by decide)).append lines
  · apply Agree.ok Lines.nil

/-! ### Benches -/

variable {config config' : Config}

/-- Items that are made one by one and have words for names are declared on interchangeable
lines. -/
theorem lines_of_items {items' : List Item}
    (h : List.Forall₂ (fun i j : Item => IsWord i.name ∧ i = j) items items') (keyword : Text)
    (style style' : Style) (depth : Nat) :
  items = items' ∧
    Lines (declarationPart items keyword style depth) (declarationPart items' keyword style' depth)
  := by
  rw [List.forall₂_and_left, List.forall₂_eq_eq_eq] at h
  obtain ⟨words, rfl⟩ := h
  use rfl
  apply lines_declarationPart words

/-- The constants are declared with the same values if the generics have the same values. -/
theorem agree_constants
    (h : ∀ g ∈ e.generics, config.generic? g.name.text = config'.generic? g.name.text)
    (style style' : Style) :
  Agree Eq Lines (constants e config style) (constants e config' style')
  := by
  have item : ∀ g ∈ e.generics, Agree Eq (fun i j : Item => IsWord i.name ∧ i = j)
      (do return (Item.ofGeneric g).withValue (some (← constantValue config g)))
      (do return (Item.ofGeneric g).withValue (some (← constantValue config' g))) := by
    intro g hg
    rw [constantValue, constantValue, h g hg]
    apply Agree.bind (Agree.refl _)
    rintro v _ rfl
    exact Agree.ok ⟨g.name.isWord, rfl⟩
  rw [constants, constants]
  apply Agree.bind (Agree.mapM item)
  intro items items' made
  obtain ⟨rfl, lines⟩ := lines_of_items made "constant" style style' 1
  apply Agree.ok
  rw [unlessEmpty, unlessEmpty]
  split
  · apply Lines.nil
  · apply lines.append (Lines.refl (by decide))

theorem agree_signals (e : Entity) (style style' : Style) :
  Agree Eq Lines (signals e style) (signals e style')
  := by
  have item : ∀ p ∈ e.ports, Agree Eq (fun i j : Item => IsWord i.name ∧ i = j)
      (do return (Item.ofPort p).withValue (← initialValue p))
      (do return (Item.ofPort p).withValue (← initialValue p)) := by
    intro p _
    apply Agree.bind (Agree.refl _)
    rintro v _ rfl
    exact Agree.ok ⟨p.name.isWord, rfl⟩
  rw [signals, signals]
  apply Agree.bind (Agree.mapM item)
  intro items items' made
  exact Agree.ok (lines_of_items made "signal" style style' 1).2

/-- The parts of a bench are interchangeable as lines if its settings are the same. -/
theorem lines_parts (settings : config.bench = config'.bench) {constants constants' signals signals'
      clock clock' reset reset' stimulus stimulus' : Text}
    (hconstants : Lines constants constants') (hsignals : Lines signals signals')
    (hclock : Lines clock clock') (hreset : Lines reset reset')
    (hstimulus : Lines stimulus stimulus') :
  Lines (parts e config constants signals clock reset stimulus).flatten
    (parts e config' constants' signals' clock' reset' stimulus').flatten
  := by
  have top : topName e config = topName e config' := by
    rw [topName, topName, settings]
  apply Lines.flatten
  rw [parts, parts, settings, top]
  refine .cons ?_ (.cons hconstants (.cons ?_ (.cons hsignals (.cons ?_ (.cons ?_ (.cons ?_
    (.cons ?_ (.cons ?_ .nil))))))))
  · apply Lines.refl_append _ (by decide)
  · apply (lines_component ..).append (Lines.refl (by decide))
  · apply lines_line
  · apply Lines.refl (by decide)
  · apply lines_instantiation
  · apply ((hclock.append hreset).append (Lines.refl (by decide))).append hstimulus
  · apply Lines.refl_append _ (by decide)

/-- The benches of an entity are interchangeable under configurations that differ in the layout and
in what the entity does not ask for. -/
theorem agree_generate (settings : config.bench = config'.bench)
    (limits : config.limits = config'.limits)
    (values : ∀ g ∈ e.generics, config.generic? g.name.text = config'.generic? g.name.text) :
  Agree Eq Lines (generate e config) (generate e config')
  := by
  rw [generate, generate, plan, plan, settings, limits]
  cases shared : findShared? e with
  | some n =>
    rw [assemble_of_shared shared, assemble_of_shared shared]
    apply Agree.error rfl
  | none =>
    rw [assemble_eq_parts shared, assemble_eq_parts shared, settings]
    apply Agree.bind (agree_constants values _ _)
    intro constants constants' hconstants
    apply Agree.bind (agree_signals ..)
    intro signals signals' hsignals
    apply Agree.bind (agree_paragraph e _ (agree_clockProcess e _ _ _ _))
    intro clock clock' hclock
    apply Agree.bind (agree_paragraph e _ (agree_resetProcess e _ _ _ _))
    intro reset reset' hreset
    apply Agree.bind (agree_stimulusProcess ..)
    intro stimulus stimulus' hstimulus
    apply Agree.ok
    apply lines_parts settings hconstants hsignals hclock hreset hstimulus

/-- Under two configurations with the same settings, the same limits and the same values for its
generics an entity has benches with the same tokens or no bench for the same reason. -/
theorem map_tokens_generate (settings : config.bench = config'.bench)
    (limits : config.limits = config'.limits)
    (values : ∀ g ∈ e.generics, config.generic? g.name.text = config'.generic? g.name.text) :
  (generate e config).map tokens = (generate e config').map tokens
  := by
  have agree := agree_generate settings limits values
  generalize generate e config = bench, generate e config' = bench' at agree ⊢
  cases agree with
  | error same => rw [same]
  | ok lines => rw [Except.map, Except.map, lines.behind.tokens_eq]

/-- A configuration with a layout and a generic of its own. -/
def tabbed : Config :=
  { Config.standard with
    style := ⟨some 0, some false, some 0, some true, some 7⟩
    generics := Dictionary.ofList [("width", "8")] }

/-- The bench of the shifter has the same tokens without and with a layout of its own. -/
theorem map_tokens_generate_shifter :
  (generate shifter Config.standard).map tokens = (generate shifter tabbed).map tokens ∧
    generate shifter Config.standard ≠ generate shifter tabbed
  := by
  have settings : Config.standard.bench = tabbed.bench := rfl
  have limits : Config.standard.limits = tabbed.limits := rfl
  constructor
  · apply map_tokens_generate settings limits
    decide +kernel
  · decide +kernel

end Testbench.Check
