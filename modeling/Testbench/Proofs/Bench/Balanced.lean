import Testbench.Proofs.Bench.Assembly
import Testbench.Proofs.Bench.Constant
import Testbench.Proofs.Bench.Name
import Testbench.Proofs.Layout.Line
import Testbench.Proofs.Stimulus.Plan

/-!
# Benches are balanced

A bench writes the texts that it takes from an entity and from a configuration between texts
of its own, and never inside a string.  If each of them is balanced, then so is what is
written of each item, list, statement and process, and so is the bench.  The texts of an
entity that is read from source are balanced.
-/

namespace Testbench.Bench

open Text Vhdl Stimulus Layout

variable {s t opening separator : Text} {i : Item} {items : List Item} {style : Style}
  {depth column : Nat} {e : Entity} {config : Config} {p : Port} {v : Value}

/-! ### Lines -/

theorem balanced_spaces (n : Nat) :
  Balanced (spaces n)
  := by
  apply Balanced.of_isPlain
  intro c hc
  rw [eq_space_of_mem_spaces hc]
  decide

theorem balanced_indent (style : Style) (depth : Nat) :
  Balanced (style.indent depth)
  := balanced_spaces _

theorem balanced_padding (p : Placement) (column : Nat) (name : Text) :
  Balanced (p.padding column name)
  := balanced_spaces _

theorem balanced_ofNat (n : Nat) :
  Balanced (ofNat n)
  := Balanced.of_isPlain fun _ hc => isPlain_of_isDigit (isDigit_of_mem_ofNat hc)

theorem balanced_line (ht : Balanced t) (style : Style) (depth : Nat) :
  Balanced (line style depth t)
  := ((balanced_indent style depth).append ht).append (by decide)

theorem balanced_wait (style : Style) (depth : Nat) (d : Delay) :
  Balanced (wait style depth d)
  := by
  have delay : Balanced d.text := (balanced_ofNat d).append (by decide)
  have front : Balanced "wait for " := by decide
  apply balanced_line
  apply (front.append delay).append (by decide)

/-- A fresh name is balanced if its base is. -/
theorem balanced_freshName {base : Text} (hb : Balanced base) (e : Entity) :
  Balanced (freshName e base)
  := by
  obtain ⟨i, eq, -⟩ := freshName_spec e base
  rw [eq]
  cases i with
  | zero => apply hb
  | succ i => apply (hb.append (by decide)).append (balanced_ofNat _)

/-! ### Items -/

/-- An item with balanced texts. -/
structure BalancedItem (i : Item) : Prop where
  name : Balanced i.name
  type : Balanced i.type
  value : ∀ v ∈ i.value, Balanced v

namespace BalancedItem

theorem heading (hi : BalancedItem i) (p : Placement) (column : Nat) {mark : Text}
    (hm : Balanced mark) :
  Balanced (i.name ++ p.padding column i.name ++ mark)
  := (hi.name.append (balanced_padding _ _ _)).append hm

theorem assignment (hi : BalancedItem i) :
  Balanced i.assignment
  := by
  rw [Item.assignment]
  split
  · next v hv =>
    have sign : Balanced " := " := by decide
    apply sign.append (hi.value v hv)
  · apply Balanced.nil

theorem interfaceLine (hi : BalancedItem i) (style : Style) (column : Nat) :
  Balanced (i.interfaceLine style column)
  := by
  have mode : Balanced i.modePart := by
    rw [Item.modePart]
    split
    · next m _ => cases m <;> decide
    · apply Balanced.nil
  apply Balanced.append _ hi.assignment
  apply ((hi.heading style.types column (by decide)).append mode).append hi.type

theorem declarationLine (hi : BalancedItem i) {keyword : Text} (hk : Balanced keyword)
    (style : Style) (column : Nat) :
  Balanced (i.declarationLine keyword style column)
  := by
  have space : Balanced " " := by decide
  have colon : Balanced ": " := by decide
  have padding := balanced_padding style.types column i.name
  have named := ((hk.append space).append hi.name).append padding
  apply (((named.append colon).append hi.type).append hi.assignment).append (by decide)

theorem associationLine (hi : BalancedItem i) (style : Style) (column : Nat) :
  Balanced (i.associationLine style column)
  := (hi.heading style.mappings column (by decide)).append hi.name

end BalancedItem

/-! ### Lists of items -/

/-- Balanced lines are balanced in the parentheses of a part. -/
theorem balanced_enclosed {ts : List Text} (ho : Balanced opening) (hs : Balanced separator)
    (ht : ∀ t ∈ ts, Balanced t) (style : Style) (depth : Nat) :
  Balanced (enclosed opening separator ts style depth)
  := by
  have lines : ∀ t ∈ ts.map (style.indent (depth + 1) ++ ·), Balanced t := by
    intro t mem
    obtain ⟨line, hline, rfl⟩ := List.mem_map.1 mem
    apply (balanced_indent _ _).append (ht line hline)
  have lineEnd : Balanced ['\n'] := by decide
  have inside : Balanced ('\n' :: (join (separator ++ "\n")
      (ts.map (style.indent (depth + 1) ++ ·)) ++ "\n" ++ style.indent depth)) :=
    lineEnd.append ((((hs.append lineEnd).join lines).append lineEnd).append (balanced_indent _ _))
  have front : Balanced (style.indent depth ++ opening ++ " ") :=
    ((balanced_indent style depth).append ho).append (by decide)
  have whole := front.append inside.parenthesized
  simp only [enclosed, List.append_assoc, List.cons_append] at whole ⊢
  exact whole

theorem balanced_interfacePart (hi : ∀ i ∈ items, BalancedItem i) {keyword : Text}
    (hk : Balanced keyword) (style : Style) (depth : Nat) :
  Balanced (interfacePart items keyword style depth)
  := by
  apply Balanced.append _ (by decide)
  apply balanced_enclosed hk (by decide)
  intro t mem
  obtain ⟨i, hi', rfl⟩ := List.mem_map.1 mem
  apply (hi i hi').interfaceLine

theorem balanced_declarationPart (hi : ∀ i ∈ items, BalancedItem i) {keyword : Text}
    (hk : Balanced keyword) (style : Style) (depth : Nat) :
  Balanced (declarationPart items keyword style depth)
  := by
  rw [declarationPart, List.flatMap_def]
  apply Balanced.flatten
  intro t mem
  obtain ⟨i, hi', rfl⟩ := List.mem_map.1 mem
  apply ((balanced_indent _ _).append ((hi i hi').declarationLine hk style _)).append (by decide)

theorem balanced_associationPart (hi : ∀ i ∈ items, BalancedItem i) {keyword : Text}
    (hk : Balanced keyword) (style : Style) (depth : Nat) :
  Balanced (associationPart items keyword style depth)
  := by
  apply balanced_enclosed (hk.append (by decide)) (by decide)
  intro t mem
  obtain ⟨i, hi', rfl⟩ := List.mem_map.1 mem
  apply (hi i hi').associationLine

theorem balanced_unlessEmpty {write : List Item → Text} (h : Balanced (write items)) :
  Balanced (unlessEmpty items write)
  := by
  rw [unlessEmpty]
  split
  · apply Balanced.nil
  · exact h

/-! ### Entities and configurations -/

/-- An entity with balanced texts. -/
structure BalancedEntity (e : Entity) : Prop where
  types : ∀ g ∈ e.generics, Balanced g.type
  genericDefaults : ∀ g ∈ e.generics, ∀ d ∈ g.default, Balanced d
  bounds : ∀ p ∈ e.ports, ∀ r ∈ p.range, Balanced r.left.text ∧ Balanced r.right.text
  portDefaults : ∀ p ∈ e.ports, ∀ d ∈ p.default, Balanced d

/-- A configuration whose names, suffix and values for generics are balanced. -/
structure BalancedConfig (config : Config) : Prop where
  instanceName : Balanced config.bench.instanceName
  architectureName : Balanced config.bench.architectureName
  suffix : Balanced config.bench.suffix
  values : ∀ entry ∈ config.generics.entries, Balanced entry.2

/-- The texts of an entity that are kept from source are balanced. -/
theorem balancedEntity_of_isRead (he : e.IsRead) :
  BalancedEntity e
  := by
  constructor
  case types =>
    intro g hg
    apply (he.generics g hg).type.balanced
  case genericDefaults =>
    intro g hg d hd
    apply ((he.generics g hg).default d hd).balanced
  case bounds =>
    intro p hp r hr
    obtain ⟨t, tidy, balanced, read⟩ := (he.ports p hp).range r hr
    use (Range.solid_bound tidy balanced read (Or.inl rfl)).1
    apply (Range.solid_bound tidy balanced read (Or.inr rfl)).1
  case portDefaults =>
    intro p hp d hd
    apply ((he.ports p hp).default d hd).balanced

namespace BalancedEntity

theorem subtype (he : BalancedEntity e) (hp : p ∈ e.ports) :
  Balanced p.subtype
  := by
  have name := p.type.isWord_name.balanced
  rw [Port.subtype]
  split
  · next r hr =>
    obtain ⟨left, right⟩ := he.bounds p hp r hr
    have space : Balanced " " := by decide
    have range : Balanced r.text :=
      (((left.append space).append r.direction.isWord_name.balanced).append space).append right
    have whole := name.append range.parenthesized
    simp only [List.append_assoc, List.cons_append] at whole ⊢
    exact whole
  · apply name

theorem genericItem (he : BalancedEntity e) {g : Generic} (hg : g ∈ e.generics)
    {value : Option Text} (hv : ∀ v ∈ value, Balanced v) :
  BalancedItem ((Item.ofGeneric g).withValue value)
  where
  name := g.name.isWord.balanced
  type := he.types g hg
  value := hv

theorem portItem (he : BalancedEntity e) (hp : p ∈ e.ports) {value : Option Text}
    (hv : ∀ v ∈ value, Balanced v) :
  BalancedItem ((Item.ofPort p).withValue value)
  where
  name := p.name.isWord.balanced
  type := he.subtype hp
  value := hv

theorem genericItems (he : BalancedEntity e) :
  ∀ i ∈ genericItems e, BalancedItem i
  := by
  intro i hi
  obtain ⟨g, hg, rfl⟩ := List.mem_map.1 hi
  apply he.genericItem hg (he.genericDefaults g hg)

theorem portItems (he : BalancedEntity e) :
  ∀ i ∈ portItems e, BalancedItem i
  := by
  intro i hi
  obtain ⟨p, hp, rfl⟩ := List.mem_map.1 hi
  apply he.portItem hp (he.portDefaults p hp)

theorem component (he : BalancedEntity e) (style : Style) (depth : Nat) :
  Balanced (component e style depth)
  := by
  have lineEnd : Balanced "\n" := by decide
  have keyword : Balanced "component " := by decide
  have front := (((balanced_indent style depth).append keyword).append
    e.name.isWord.balanced).append lineEnd
  have generics : Balanced (unlessEmpty (Layout.genericItems e)
      (interfacePart · "generic" style (depth + 1) ++ "\n")) := by
    apply balanced_unlessEmpty
    apply (balanced_interfacePart he.genericItems (by decide) style _).append lineEnd
  have ports : Balanced (unlessEmpty (Layout.portItems e)
      (interfacePart · "port" style (depth + 1) ++ "\n")) := by
    apply balanced_unlessEmpty
    apply (balanced_interfacePart he.portItems (by decide) style _).append lineEnd
  have close : Balanced "end component;\n" := by decide
  apply (((front.append generics).append ports).append (balanced_indent _ _)).append close

theorem instantiation (he : BalancedEntity e) {label : Text} (hl : Balanced label) (style : Style)
    (depth : Nat) :
  Balanced (instantiation e label style depth)
  := by
  have lineEnd : Balanced "\n" := by decide
  have colon : Balanced " : " := by decide
  have front := (((balanced_indent style depth).append hl).append colon).append
    e.name.isWord.balanced
  have generics : Balanced (unlessEmpty (Layout.genericItems e)
      ("\n" ++ associationPart · "generic" style (depth + 1))) := by
    apply balanced_unlessEmpty
    apply lineEnd.append (balanced_associationPart he.genericItems (by decide) style _)
  have ports : Balanced (unlessEmpty (Layout.portItems e)
      ("\n" ++ associationPart · "port" style (depth + 1))) := by
    apply balanced_unlessEmpty
    apply lineEnd.append (balanced_associationPart he.portItems (by decide) style _)
  apply ((front.append generics).append ports).append (by decide)

end BalancedEntity

/-! ### Constants and signals -/

/-- The values that are named for types are balanced. -/
theorem balanced_placeholder? {type value : Text} (h : placeholder? type = some value) :
  Balanced value
  := by
  have scalar : ∀ entry ∈ scalarPlaceholders, Balanced entry.2 := by decide
  rcases source_of_placeholder? h with ⟨entry, mem, rfl⟩ | rfl
  · apply scalar entry mem
  · decide

/-- A value is balanced when the bits that it lists are plain and the bound that it names is
balanced. -/
def BalancedValue : Value → Prop
  | .literal bits => ∀ c ∈ bits, IsPlain c
  | .setBit index => Balanced index.text
  | _ => True

/-- The values that plans give to ports of whatever range are balanced. -/
theorem common_balancedValue :
  Value.Common BalancedValue
  where
  bit _ := trivial
  truth _ := trivial
  int _ := trivial
  literal width n := by
    intro c hc
    rcases mem_binary hc with rfl | rfl <;> decide
  fill _ := trivial
  first := balanced_ofNat 0

/-- A balanced value is written as a balanced text. -/
theorem balanced_literal (hv : BalancedValue v) :
  Balanced (literal v)
  := by
  cases v with
  | bit b => cases b <;> decide
  | truth b => cases b <;> decide
  | int n =>
    cases n with
    | ofNat n => apply balanced_ofNat
    | negSucc n =>
      have sign : Balanced ['-'] := by decide
      apply sign.append (balanced_ofNat (n + 1))
  | literal bits =>
    apply Balanced.quoted
    intro quote
    apply (hv '"' quote).1 rfl
  | fill b => cases b <;> decide
  | setBit index =>
    have aggregate : Balanced "(others => '0')" := by decide
    exact aggregate

theorem balanced_render (hv : BalancedValue v) (h : render v p = .ok t) :
  Balanced t
  := by
  rw [render] at h
  split at h
  · obtain rfl := Except.ok.inj h
    apply balanced_literal hv
  · contradiction

theorem balanced_constants (he : BalancedEntity e) (hc : BalancedConfig config)
    (h : constants e config style = .ok t) :
  Balanced t
  := by
  obtain ⟨items, hitems, rfl⟩ := exists_items_of_constants h
  apply balanced_unlessEmpty
  apply Balanced.append _ (by decide)
  apply balanced_declarationPart _ (by decide)
  intro i hi
  obtain ⟨g, hg, v, hvalue, rfl⟩ := hitems i hi
  apply he.genericItem hg
  intro w hw
  obtain rfl := Option.some.inj hw
  rcases source_of_constantValue hvalue with ⟨entry, listed, rfl⟩ | default | placed
  · apply hc.values entry listed
  · apply he.genericDefaults g hg v default
  · apply balanced_placeholder? placed

theorem balanced_signals (he : BalancedEntity e) (h : signals e style = .ok t) :
  Balanced t
  := by
  obtain ⟨items, hitems, rfl⟩ := exists_items_of_signals h
  apply balanced_declarationPart _ (by decide)
  intro i hi
  obtain ⟨p, hp, value, hvalue, rfl⟩ := hitems i hi
  apply he.portItem hp
  intro v hv
  rcases source_of_initialValue hvalue hv with default | impedance | rendered
  · apply he.portDefaults p hp v default
  · rcases source_of_highImpedance? impedance with rfl | rfl <;> decide
  · apply balanced_render (common_balancedValue.initial _) rendered

/-! ### Processes -/

/-- The assignment of a balanced value to a port is balanced. -/
theorem balanced_assign (hv : BalancedValue v) (h : assign style depth p v = .ok t) :
  Balanced t
  := by
  have name := p.name.isWord.balanced
  have sign : Balanced " <= " := by decide
  unfold assign at h
  obtain ⟨whole, rendered, h⟩ := bind_eq_ok.1 h
  obtain rfl := Except.ok.inj h
  apply Balanced.append
  · apply balanced_line
    apply ((name.append sign).append (balanced_render hv rendered)).append (by decide)
  · split
    · next index =>
      have set : Balanced " <= '1';" := by decide
      have element := (name.append (Balanced.parenthesized hv)).append set
      apply balanced_line
      simp only [List.append_assoc, List.cons_append] at element ⊢
      exact element
    · apply Balanced.nil

/-- The assignment of a logic value to a port is balanced. -/
theorem balanced_assign_logic {b : Bool} (h : assign style depth p (.logic p.type b) = .ok t) :
  Balanced t
  := balanced_assign (common_balancedValue.logic _ _) h

/-- A process with a balanced label and balanced statements is balanced. -/
theorem balanced_process {label statements : Text} (hl : Balanced label)
    (hs : Balanced statements) (style : Style) :
  Balanced (process style label statements)
  := by
  have heading := balanced_line (hl.append (t := " : process") (by decide)) style 1
  have start := balanced_line (t := "begin") (by decide) style 1
  have stop := balanced_line (t := "wait;") (by decide) style 2
  have finish := balanced_line (t := "end process;") (by decide) style 1
  apply (((heading.append start).append hs).append stop).append finish

theorem balanced_clockProcess {settings : Settings} {done : Text} (hd : Balanced done)
    (h : clockProcess e style settings done p = .ok t) :
  Balanced t
  := by
  rw [clockProcess] at h
  obtain ⟨low, hlow, h⟩ := bind_eq_ok.1 h
  obtain ⟨high, hhigh, h⟩ := bind_eq_ok.1 h
  obtain rfl := Except.ok.inj h
  have front : Balanced "while not " := by decide
  have loop := balanced_line ((front.append hd).append (t := " loop") (by decide)) style 2
  have half := balanced_wait style 3 settings.clockHalfPeriod
  have finish := balanced_line (t := "end loop;") (by decide) style 2
  have low := balanced_assign_logic hlow
  have high := balanced_assign_logic hhigh
  apply balanced_process (balanced_freshName (by decide) e)
  apply ((((loop.append low).append half).append high).append half).append finish

theorem balanced_resetProcess {settings : Settings} {activeLow : Bool}
    (h : resetProcess e style settings activeLow p = .ok t) :
  Balanced t
  := by
  rw [resetProcess] at h
  obtain ⟨active, hactive, h⟩ := bind_eq_ok.1 h
  obtain ⟨released, hreleased, h⟩ := bind_eq_ok.1 h
  obtain rfl := Except.ok.inj h
  have active := balanced_assign_logic hactive
  have released := balanced_assign_logic hreleased
  apply balanced_process (balanced_freshName (by decide) e)
  apply (active.append (balanced_wait style 2 _)).append released

theorem balanced_awaitReset {activeLow : Bool} (h : awaitReset style activeLow p = .ok t) :
  Balanced t
  := by
  rw [awaitReset] at h
  obtain ⟨released, hreleased, h⟩ := bind_eq_ok.1 h
  obtain rfl := Except.ok.inj h
  have front : Balanced "wait until " := by decide
  have equals : Balanced " = " := by decide
  have value := balanced_render (common_balancedValue.logic _ _) hreleased
  apply balanced_line
  apply (((front.append p.name.isWord.balanced).append equals).append value).append (by decide)

theorem balanced_combinationRows {ports : List Port} {delay : Delay} {n : Nat}
    {rows : List (List Value)} (hr : ∀ row ∈ rows, ∀ v ∈ row, BalancedValue v)
    (h : combinationRows ports style delay n rows = .ok t) :
  Balanced t
  := by
  induction rows generalizing n t with
  | nil =>
    obtain rfl := Except.ok.inj h
    apply Balanced.nil
  | cons row rows ih =>
    rw [combinationRows] at h
    obtain ⟨assigned, hassigned, h⟩ := bind_eq_ok.1 h
    obtain ⟨rest, hrest, h⟩ := bind_eq_ok.1 h
    obtain rfl := Except.ok.inj h
    have rest := ih (fun row hrow => hr row (List.mem_cons_of_mem _ hrow)) hrest
    have statements : Balanced assigned.flatten := by
      apply Balanced.flatten
      intro t ht
      obtain ⟨⟨p, v⟩, mem, made⟩ := exists_of_mem_of_mapM_eq_ok hassigned ht
      apply balanced_assign _ made
      apply hr row List.mem_cons_self v (List.of_mem_zip mem).2
    have comment : Balanced "-- combination " := by decide
    have heading := balanced_line (comment.append (balanced_ofNat n)) style 2
    apply ((heading.append statements).append (balanced_wait style 2 delay)).append rest

theorem balanced_sequenceStatements {steps : List Step}
    (hs : ∀ s ∈ steps, BalancedValue s.value) (h : sequenceStatements style p steps = .ok t) :
  Balanced t
  := by
  rw [sequenceStatements] at h
  obtain ⟨assigned, hassigned, h⟩ := bind_eq_ok.1 h
  obtain rfl := Except.ok.inj h
  have comment : Balanced "-- sequence for " := by decide
  apply (balanced_line (comment.append p.name.isWord.balanced) style 2).append
  apply Balanced.flatten
  intro t ht
  obtain ⟨step, mem, made⟩ := exists_of_mem_of_mapM_eq_ok hassigned ht
  obtain ⟨statement, hstatement, made⟩ := bind_eq_ok.1 made
  obtain rfl := Except.ok.inj made
  apply (balanced_assign (hs step mem) hstatement).append (balanced_wait style 2 _)

/-- The process that applies a plan with balanced values is balanced. -/
theorem balanced_stimulusProcess {roles : Roles} {plan : Plan} (hp : plan.All BalancedValue)
    {done : Text} (hd : Balanced done) (h : stimulusProcess e style roles plan done = .ok t) :
  Balanced t
  := by
  rw [stimulusProcess_eq] at h
  obtain ⟨start, hstart, h⟩ := bind_eq_ok.1 h
  obtain ⟨table, htable, h⟩ := bind_eq_ok.1 h
  obtain ⟨sequences, hsequences, h⟩ := bind_eq_ok.1 h
  obtain rfl := Except.ok.inj h
  have start : Balanced start := by
    rcases of_startStatements_eq_ok hstart with rfl | ⟨reset, -, written⟩
    · apply Balanced.nil
    · apply balanced_awaitReset written
  have table : Balanced table := by
    rcases of_tableStatements_eq_ok htable with ⟨-, rfl⟩ | ⟨c, hc, written⟩
    · apply Balanced.nil
    · apply balanced_combinationRows (hp.rows c hc) written
  have sequences : Balanced sequences.flatten := by
    apply Balanced.flatten
    intro t ht
    obtain ⟨⟨p, steps⟩, mem, made⟩ := exists_of_mem_of_mapM_eq_ok hsequences ht
    obtain ⟨i, -, listed⟩ := exists_of_mem_drivers mem
    apply balanced_sequenceStatements (hp.steps (i, steps) listed) made
  have finish := balanced_line (hd.append (t := " <= true;") (by decide)) style 2
  apply balanced_process (balanced_freshName (by decide) e)
  apply ((start.append table).append sequences).append finish

/-- The text that is made of a port, if there is one, is balanced if each such text is. -/
theorem balanced_paragraph {index : Option Nat} {write : Port → Except Error Text}
    (hw : ∀ p s, write p = .ok s → Balanced s) (h : paragraph e index write = .ok t) :
  Balanced t
  := by
  rcases of_paragraph_eq_ok h with ⟨-, rfl⟩ | ⟨p, s, -, written, rfl⟩
  · apply Balanced.nil
  · have lineEnd : Balanced ['\n'] := by decide
    apply lineEnd.append (hw p s written)

/-! ### Benches -/

/-- The lines before the architecture are balanced. -/
theorem balanced_preamble (e : Entity) {top : Text} (ht : Balanced top) :
  Balanced (preamble e top)
  := by
  have title : Balanced "-- Testbench for entity '" := by decide
  have titled := (title.append e.name.isWord.balanced).append (t := "'.\n") (by decide)
  have made := ((titled.append (t := "-- Generated by ") (by decide)).append
    (t := generator) (by decide)).append (t := ".\n\n") (by decide)
  have library : Balanced
      "library ieee;\nuse ieee.std_logic_1164.all;\nuse ieee.numeric_std.all;\n\n" := by
    decide +kernel
  apply Balanced.append _ (by decide)
  apply Balanced.append _ ht
  apply Balanced.append _ (by decide)
  apply ((made.append library).append (by decide)).append ht

/-- The bench of an entity from source is balanced if the texts of the configuration are. -/
theorem balanced_generate {source bench : Text} (he : Entity.ofSource source = .ok e)
    (hc : BalancedConfig config) (h : generate e config = .ok bench) :
  Balanced bench
  := by
  have entity := balancedEntity_of_isRead (Entity.isRead_of_ofSource_eq_ok he)
  obtain ⟨-, constants, signals, clock, reset, stimulus, hconstants, hsignals, hclock, hreset,
    hstimulus, written⟩ := exists_parts_of_generate h
  have done : Balanced (freshName e "tb_done") := balanced_freshName (by decide) e
  have top : Balanced (topName e config) := e.name.isWord.balanced.append hc.suffix
  have lineEnd : Balanced "\n" := by decide
  have plan : (plan e config).All BalancedValue :=
    common_balancedValue.all_ofEntity (fun p hp r hr => (entity.bounds p hp r hr).2) _ _ _
  have front : Balanced (preamble e (topName e config) ++ "architecture " ++
      config.bench.architectureName ++ " of " ++ topName e config ++ " is\n") := by
    apply Balanced.append _ (by decide)
    apply Balanced.append _ top
    apply Balanced.append _ (by decide)
    apply ((balanced_preamble e top).append (by decide)).append hc.architectureName
  have flag : Balanced ("signal " ++ freshName e "tb_done" ++ " : boolean := false;") :=
    (Balanced.append (by decide) done).append (by decide)
  have label := balanced_freshName hc.instanceName e
  have clock := balanced_paragraph (fun _ _ => balanced_clockProcess done) hclock
  have reset := balanced_paragraph (fun _ _ => balanced_resetProcess) hreset
  have stimulus := balanced_stimulusProcess plan done hstimulus
  have close : Balanced ("\nend architecture " ++ config.bench.architectureName ++ ";\n") :=
    (Balanced.append (by decide) hc.architectureName).append (by decide)
  rw [written]
  apply Balanced.flatten
  simp only [parts, List.forall_mem_cons, List.not_mem_nil, false_imp_iff, implies_true, and_true]
  exact ⟨front, balanced_constants entity hc hconstants, (entity.component _ 1).append lineEnd,
    balanced_signals entity hsignals, balanced_line flag _ 1, by decide,
    entity.instantiation label _ 1, ((clock.append reset).append lineEnd).append stimulus, close⟩

theorem balancedConfig_standard :
  BalancedConfig Config.standard
  := by
  constructor <;> decide

/-- The bench of the shifter is balanced. -/
theorem balanced_generate_shifter :
  Entity.ofSource shifterSource = .ok shifter ∧ BalancedConfig Config.standard ∧
    ∃ bench, generate shifter Config.standard = .ok bench ∧ Balanced bench
  := by
  use ofSource_shifter, balancedConfig_standard
  have generated : (generate shifter Config.standard).isOk := by decide +kernel
  cases h : generate shifter Config.standard with
  | error _ =>
    rw [h] at generated
    contradiction
  | ok bench => exact ⟨bench, rfl, balanced_generate ofSource_shifter balancedConfig_standard h⟩

end Testbench.Bench
