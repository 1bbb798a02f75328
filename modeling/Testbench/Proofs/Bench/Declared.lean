import Testbench.Proofs.Bench.Fault
import Testbench.Proofs.Bench.Name
import Testbench.Proofs.Stage
import Testbench.Proofs.Stimulus.Plan
import Testbench.Proofs.Vhdl.Verbatim

/-!
# Names that a bench declares

The architecture of a bench declares constants for the generics, signals for the ports, a flag,
an instance and processes.  None of their names is the name of the entity, and the names are
different up to case unless a generic has the name of a port or the label of the instance is the
name of the flag or of a process.  The latter needs a configured label that is made like one of
these names.
-/

namespace Testbench.Bench

open Text Vhdl Stimulus Layout

variable {e : Entity} {config : Config} {bench base : Text} {d : Declared}

/-! ### Declarations -/

/-- The declaration of a name, with what is written before and behind the name. -/
structure Declared where
  before : Text
  name : Text
  behind : Text

/-- A declaration as it is written. -/
def Declared.text (d : Declared) : Text := d.before ++ d.name ++ d.behind

/-- The declaration of an item of a list as an object of the class `keyword`, up to its value. -/
def Declared.ofItem (keyword : Text) (style : Style) (items : List Item) (i : Item) : Declared :=
  ⟨keyword ++ " ", i.name, style.types.padding (longestName items) i.name ++ ": " ++ i.type⟩

/-- The declarations of the items of a list as objects of the class `keyword`. -/
def Declared.ofItems (keyword : Text) (style : Style) (items : List Item) : List Declared :=
  items.map (ofItem keyword style items)

/-- The text from which the name of the flag is made. -/
def flagBase : Text := "tb_done"

/-- The text from which the label of the process for the clock is made. -/
def clockBase : Text := "clock_process"

/-- The text from which the label of the process for the reset is made. -/
def resetBase : Text := "reset_process"

/-- The text from which the label of the process for the data inputs is made. -/
def stimulusBase : Text := "stimulus_process"

/-- The texts from which the names of the flag and of all processes are made. -/
def ownBases : List Text := [flagBase, clockBase, resetBase, stimulusBase]

/-- The texts from which the labels of the processes of a bench are made. -/
def processBases (roles : Roles) : List Text :=
  (if roles.clock.isSome then [clockBase] else []) ++
    ((if roles.reset.isSome then [resetBase] else []) ++ [stimulusBase])

/-- The declaration of the flag. -/
def declaredFlag (e : Entity) : Declared := ⟨"signal ", freshName e flagBase, " : boolean"⟩

/-- The declaration of a process with a label. -/
def declaredProcess (label : Text) : Declared := ⟨[], label, " : process"⟩

/-- The declarations of the processes. -/
def declaredProcesses (e : Entity) (roles : Roles) : List Declared :=
  (processBases roles).map fun base => declaredProcess (freshName e base)

/-- The declaration of the instance. -/
def declaredInstance (e : Entity) (config : Config) : Declared :=
  ⟨[], freshName e config.bench.instanceName, " : " ++ e.name.text⟩

/-- The declarations whose names do not depend on the configuration and are no names of the
entity. -/
def declaredOwn (e : Entity) : List Declared :=
  declaredFlag e :: declaredProcesses e (Roles.ofPorts e.ports)

/-- The declarations in the architecture of the bench of an entity. -/
def declared (e : Entity) (config : Config) : List Declared :=
  let style := config.style.merge Style.standard
  Declared.ofItems "constant" style (genericItems e) ++
    Declared.ofItems "signal" style (portItems e) ++ declaredOwn e ++ [declaredInstance e config]

/-! ### Names -/

theorem map_name_ofItems (keyword : Text) (style : Style) (items : List Item) :
  (Declared.ofItems keyword style items).map (·.name) = items.map (·.name)
  := by
  rw [Declared.ofItems, List.map_map]
  rfl

theorem map_name_declared (e : Entity) (config : Config) :
  (declared e config).map (·.name) =
    e.generics.map (·.name.text) ++ e.ports.map (·.name.text) ++
      (flagBase :: processBases (Roles.ofPorts e.ports)).map (freshName e) ++
      [freshName e config.bench.instanceName]
  := by
  simp only [declared, List.map_append, map_name_ofItems, genericItems, portItems, declaredOwn,
    declaredProcesses, List.map_map, List.map_cons]
  rfl

theorem map_freshName_own (e : Entity) :
  (flagBase :: processBases (Roles.ofPorts e.ports)).map (freshName e) =
    (declaredOwn e).map (·.name)
  := by
  rw [declaredOwn, declaredProcesses, List.map_cons, List.map_cons, List.map_map]
  rfl

theorem head?_candidate (ne : base ≠ []) (i : Nat) :
  (candidate base i).head? = base.head?
  := by
  cases i with
  | zero => rfl
  | succ i => simp [candidate, List.head?_append_of_ne_nil _ ne]

/-- Texts that begin differently are not the same, with or without a number behind the second. -/
theorem not_sameWord_candidate {base' : Text} (ne : base' ≠ [])
    (h : base.head?.map Char.toLower ≠ base'.head?.map Char.toLower) (i : Nat) :
  ¬base.sameWord (candidate base' i)
  := by
  intro same
  apply h
  rw [← head?_candidate ne i, ← head?_lower, ← head?_lower, sameWord_iff.1 same]

/-- The texts from which the names of the flag and the processes are made begin differently. -/
theorem not_sameWord_ownBases {base' : Text} (h : base ∈ ownBases) (h' : base' ∈ ownBases)
    (ne : base ≠ base') (i : Nat) :
  ¬base.sameWord (candidate base' i)
  := by
  have nonempty : ∀ base ∈ ownBases, base ≠ [] := by decide
  have differ : ∀ base ∈ ownBases, ∀ base' ∈ ownBases, base ≠ base' →
      base.head?.map Char.toLower ≠ base'.head?.map Char.toLower := by decide
  apply not_sameWord_candidate (nonempty base' h') (differ base h base' h' ne)

/-- A candidate with a number ends with a digit, and so none of these texts is one. -/
theorem not_sameWord_candidate_succ (h : base ∈ ownBases) (name : Text) (i : Nat) :
  ¬base.sameWord (candidate name (i + 1))
  := by
  have last : ∀ base ∈ ownBases, ¬(lower base).getLast?.any Char.isDigit := by decide
  intro same
  apply last base h
  rw [sameWord_iff.1 same, lower_candidate_succ, List.getLast?_append_of_ne_nil _ (by simp),
    List.getLast?_cons, List.getLast?_eq_getLast_of_ne_nil (ofNat_ne_nil _)]
  apply isDigit_of_mem_ofNat (List.getLast_mem (ofNat_ne_nil _))

theorem sublist_ownBases (roles : Roles) :
  (flagBase :: processBases roles).Sublist ownBases
  := by
  have part : ∀ (present : Bool) (base : Text),
      (if present then [base] else []).Sublist [base] := by
    intro present base
    cases present with
    | true => apply List.Sublist.refl
    | false => apply List.nil_sublist
  have split : ownBases = flagBase :: ([clockBase] ++ ([resetBase] ++ [stimulusBase])) := rfl
  rw [split, processBases]
  apply List.Sublist.cons_cons
  apply (part _ _).append
  apply (part _ _).append (List.Sublist.refl _)

/-- The names of the flag and the processes are different. -/
theorem pairwise_own (e : Entity) (roles : Roles) :
  ((flagBase :: processBases roles).map (freshName e)).Pairwise fun n n' => ¬n.sameWord n'
  := by
  have distinct : ownBases.Pairwise (· ≠ ·) := by decide
  rw [List.pairwise_map]
  apply List.Pairwise.sublist (sublist_ownBases roles)
  apply distinct.imp_of_mem
  intro base base' h h' ne
  apply not_sameWord_freshName e
  · apply not_sameWord_ownBases h h' ne
  · apply not_sameWord_ownBases h' h ne.symm

/-- Members of a list that are told apart by the keys of their names have different names. -/
theorem pairwise_text {α : Type} {name : α → Identifier} {xs : List α}
    (h : (xs.map fun x => (name x).key).Nodup) :
  (xs.map fun x => (name x).text).Pairwise fun n n' => ¬n.sameWord n'
  := by
  rw [List.Nodup, List.pairwise_map] at h
  rw [List.pairwise_map]
  apply h.imp
  intro x x' ne same
  apply ne (sameWord_iff.1 same)

/-! ### Text -/

/-- The declaration of an item stands in the declarations of the items of its list, which may have
values of their own. -/
theorem isInfix_declarationPart {items written : List Item} {keyword : Text} {style : Style}
    (same : written.map (·.withValue none) = items.map (·.withValue none)) {depth : Nat}
    (hd : d ∈ Declared.ofItems keyword style items) :
  d.text <:+: declarationPart written keyword style depth
  := by
  have column : ∀ items : List Item,
      longestName items = longestName (items.map (·.withValue none)) := by
    intro items
    rw [longestName, longestName, List.map_map]
    rfl
  obtain ⟨i, hi, rfl⟩ := List.mem_map.1 hd
  have listed : i.withValue none ∈ written.map (·.withValue none) := by
    rw [same]
    apply List.mem_map.2 ⟨i, hi, rfl⟩
  obtain ⟨j, hj, eq⟩ := List.mem_map.1 listed
  obtain ⟨name, -, type, -⟩ := Item.mk.inj eq
  have line : (Declared.ofItem keyword style items i).text <:+:
      style.indent depth ++ j.declarationLine keyword style (longestName written) ++ "\n" := by
    use style.indent depth, j.assignment ++ ";" ++ "\n"
    simp only [Declared.text, Declared.ofItem, Item.declarationLine, column items, ← same,
      ← column written, name, type, List.append_assoc]
  apply line.trans
  rw [declarationPart, List.flatMap_def]
  apply List.infix_of_mem_flatten
  apply List.mem_map.2 ⟨j, hj, rfl⟩

/-- Items that are made one by one of given items are those items up to their values. -/
theorem map_withValue_of_mapM {α : Type} {item : α → Item} {f : α → Except Error Item}
    {xs : List α} {written : List Item}
    (hf : ∀ x i, f x = .ok i → i.withValue none = (item x).withValue none)
    (h : xs.mapM f = .ok written) :
  written.map (·.withValue none) = (xs.map item).map (·.withValue none)
  := by
  rw [mapM_eq_ok] at h
  induction h with
  | nil => rfl
  | cons made _ ih => rw [List.map_cons, List.map_cons, List.map_cons, ih, hf _ _ made]

variable {style : Style} {t : Text}

/-- The declarations of the constants hold those of the generics. -/
theorem isInfix_constants (h : constants e config style = .ok t)
    (hd : d ∈ Declared.ofItems "constant" style (genericItems e)) :
  d.text <:+: t
  := by
  rw [constants] at h
  obtain ⟨items, hitems, h⟩ := bind_eq_ok.1 h
  obtain rfl := Except.ok.inj h
  have same : items.map (·.withValue none) = (genericItems e).map (·.withValue none) := by
    apply map_withValue_of_mapM _ hitems
    intro g i made
    obtain ⟨v, -, made⟩ := bind_eq_ok.1 made
    obtain rfl := Except.ok.inj made
    rfl
  have nonempty : items ≠ [] := by
    rintro rfl
    rw [List.map_nil, eq_comm, List.map_eq_nil_iff] at same
    simp [same, Declared.ofItems] at hd
  rw [unlessEmpty, if_neg nonempty]
  apply (isInfix_declarationPart same hd).trans (List.prefix_append _ _).isInfix

/-- The declarations of the signals hold those of the ports. -/
theorem isInfix_signals (h : signals e style = .ok t)
    (hd : d ∈ Declared.ofItems "signal" style (portItems e)) :
  d.text <:+: t
  := by
  rw [signals] at h
  obtain ⟨items, hitems, h⟩ := bind_eq_ok.1 h
  obtain rfl := Except.ok.inj h
  apply isInfix_declarationPart _ hd
  apply map_withValue_of_mapM _ hitems
  intro p i made
  obtain ⟨v, -, made⟩ := bind_eq_ok.1 made
  obtain rfl := Except.ok.inj made
  rfl

/-- The label of a process stands before it. -/
theorem isInfix_process (style : Style) (label statements : Text) :
  (declaredProcess label).text <:+: process style label statements
  := by
  use style.indent 1, "\n" ++ (line style 1 "begin" ++ statements ++ line style 2 "wait;" ++
    line style 1 "end process;")
  simp [process, line, declaredProcess, Declared.text]

/-- The label of what is written for a port stands in it if the port is there. -/
theorem isInfix_paragraph {index : Option Nat} {write : Port → Except Error Text} {label : Text}
    (hi : ∀ i ∈ index, ∃ p, e.ports[i]? = some p) (present : index.isSome)
    (hw : ∀ p s, write p = .ok s → label <:+: s) (h : paragraph e index write = .ok t) :
  label <:+: t
  := by
  obtain ⟨i, rfl⟩ := Option.isSome_iff_exists.1 present
  obtain ⟨p, hp⟩ := hi i rfl
  rcases of_paragraph_eq_ok h with ⟨absent, -⟩ | ⟨q, s, -, written, rfl⟩
  · rw [Option.bind_some, hp] at absent
    contradiction
  · apply (hw q s written).trans (List.suffix_cons _ _).isInfix

theorem isInfix_clockProcess {settings : Settings} {done : Text} {p : Port}
    (h : clockProcess e style settings done p = .ok t) :
  (declaredProcess (freshName e clockBase)).text <:+: t
  := by
  rw [clockProcess] at h
  obtain ⟨low, -, h⟩ := bind_eq_ok.1 h
  obtain ⟨high, -, h⟩ := bind_eq_ok.1 h
  obtain rfl := Except.ok.inj h
  apply isInfix_process

theorem isInfix_resetProcess {settings : Settings} {activeLow : Bool} {p : Port}
    (h : resetProcess e style settings activeLow p = .ok t) :
  (declaredProcess (freshName e resetBase)).text <:+: t
  := by
  rw [resetProcess] at h
  obtain ⟨active, -, h⟩ := bind_eq_ok.1 h
  obtain ⟨released, -, h⟩ := bind_eq_ok.1 h
  obtain rfl := Except.ok.inj h
  apply isInfix_process

theorem isInfix_stimulusProcess {roles : Roles} {plan : Plan} {done : Text}
    (h : stimulusProcess e style roles plan done = .ok t) :
  (declaredProcess (freshName e stimulusBase)).text <:+: t
  := by
  rw [stimulusProcess_eq] at h
  obtain ⟨start, -, h⟩ := bind_eq_ok.1 h
  obtain ⟨table, -, h⟩ := bind_eq_ok.1 h
  obtain ⟨sequences, -, h⟩ := bind_eq_ok.1 h
  obtain rfl := Except.ok.inj h
  apply isInfix_process

/-- The labels of the processes stand in the text for them. -/
theorem isInfix_processes {roles : Roles} {plan : Plan} {settings : Settings} {done clock reset
    stimulus : Text} (hroles : roles = Roles.ofPorts e.ports)
    (hclock : paragraph e roles.clock (clockProcess e style settings done) = .ok clock)
    (hreset : paragraph e roles.reset (resetProcess e style settings roles.activeLow) = .ok reset)
    (hstimulus : stimulusProcess e style roles plan done = .ok stimulus)
    (hd : d ∈ declaredProcesses e roles) :
  d.text <:+: clock ++ reset ++ "\n" ++ stimulus
  := by
  obtain ⟨base, hbase, rfl⟩ := List.mem_map.1 hd
  simp only [processBases, List.mem_append, List.mem_ite_nil_right, List.mem_singleton] at hbase
  rcases hbase with ⟨present, rfl⟩ | ⟨present, rfl⟩ | rfl
  · have ports : ∀ i ∈ roles.clock, ∃ p, e.ports[i]? = some p := by
      intro i hi
      obtain ⟨p, hp, -⟩ := Roles.exists_of_clock (hroles ▸ hi)
      use p
    apply (isInfix_paragraph ports present (fun _ _ => isInfix_clockProcess) hclock).trans
    use [], reset ++ "\n" ++ stimulus
    simp
  · have ports : ∀ i ∈ roles.reset, ∃ p, e.ports[i]? = some p := by
      intro i hi
      obtain ⟨p, hp, -⟩ := Roles.exists_of_reset (hroles ▸ hi)
      use p
    apply (isInfix_paragraph ports present (fun _ _ => isInfix_resetProcess) hreset).trans
    use clock, "\n" ++ stimulus
    simp
  · apply (isInfix_stimulusProcess hstimulus).trans (List.suffix_append _ _).isInfix

/-- The label of the instance stands before the name of the entity. -/
theorem isInfix_instantiation (e : Entity) (config : Config) (style : Style) :
  (declaredInstance e config).text <:+:
    instantiation e (freshName e config.bench.instanceName) style 1
  := by
  use style.indent 1,
    unlessEmpty (genericItems e) ("\n" ++ associationPart · "generic" style 2) ++
      unlessEmpty (portItems e) ("\n" ++ associationPart · "port" style 2) ++ ";\n"
  simp only [declaredInstance, Declared.text, instantiation, List.append_assoc, List.nil_append]

/-- The flag is declared with a value. -/
theorem isInfix_flag (e : Entity) (style : Style) :
  (declaredFlag e).text <:+:
    line style 1 ("signal " ++ freshName e "tb_done" ++ " : boolean := false;")
  := by
  have behind : (" : boolean := false;" : Text) = " : boolean" ++ " := false;" := rfl
  have declaration : (declaredFlag e).text =
      "signal " ++ freshName e "tb_done" ++ " : boolean" := rfl
  use style.indent 1, " := false;" ++ "\n"
  rw [line, behind, declaration]
  simp only [List.append_assoc]

/-- What stands in one of several texts stands in all of them together. -/
theorem isInfix_flatten {t part : Text} {parts : List Text} (h : t <:+: part)
    (hpart : part ∈ parts) :
  t <:+: parts.flatten
  := h.trans (List.infix_of_mem_flatten hpart)

/-- What a bench declares is written in it. -/
theorem isInfix_generate (h : generate e config = .ok bench) (hd : d ∈ declared e config) :
  d.text <:+: bench
  := by
  obtain ⟨-, constants, signals, clock, reset, stimulus, hconstants, hsignals, hclock, hreset,
    hstimulus, written⟩ := exists_parts_of_generate h
  rw [written]
  simp only [declared, declaredOwn, List.mem_append, List.mem_cons, List.not_mem_nil,
    or_false] at hd
  rcases hd with ((hd | hd) | rfl | hd) | rfl
  · apply isInfix_flatten (isInfix_constants hconstants hd)
    simp [parts]
  · apply isInfix_flatten (isInfix_signals hsignals hd)
    simp [parts]
  · apply isInfix_flatten (isInfix_flag e (config.style.merge Style.standard))
    simp [parts]
  · apply isInfix_flatten (isInfix_processes rfl hclock hreset hstimulus hd)
    simp [parts]
  · apply isInfix_flatten (isInfix_instantiation e config (config.style.merge Style.standard))
    simp [parts]

/-! ### Differences -/

theorem exists_of_mem_names {t : Text}
    (ht : t ∈ e.generics.map (·.name.text) ++ e.ports.map (·.name.text)) :
  ∃ n ∈ e.interfaceNames, n.text = t
  := by
  simp only [List.mem_append, List.mem_map] at ht
  simp only [Entity.interfaceNames, List.mem_append, List.mem_map]
  rcases ht with ⟨g, hg, rfl⟩ | ⟨p, hp, rfl⟩
  · use g.name, Or.inr ⟨g, hg, rfl⟩
  · use p.name, Or.inl ⟨p, hp, rfl⟩

/-- No name that is declared for a generic or a port is that of an entity that has a bench. -/
theorem not_sameWord_name_of_mem_interfaceNames (h : findShared? e = none) {n : Identifier}
    (hn : n ∈ e.interfaceNames) :
  ¬n.text.sameWord e.name.text
  := by
  intro same
  apply List.find?_eq_none.1 h n hn
  rw [Identifier.same_iff]
  exact sameWord_iff.1 same

/-- No name that is declared is that of an entity that has a bench. -/
theorem not_sameWord_name_of_mem_declared (h : findShared? e = none) (hd : d ∈ declared e config) :
  ¬d.name.sameWord e.name.text
  := by
  have listed : d.name ∈ (declared e config).map (·.name) := List.mem_map_of_mem hd
  rw [map_name_declared, List.append_assoc, List.mem_append] at listed
  rcases listed with interface | own
  · obtain ⟨n, hn, eq⟩ := exists_of_mem_names interface
    rw [← eq]
    apply not_sameWord_name_of_mem_interfaceNames h hn
  · obtain ⟨base, eq⟩ : ∃ base, freshName e base = d.name := by
      rw [List.mem_append, List.mem_map, List.mem_singleton] at own
      rcases own with ⟨base, -, eq⟩ | eq
      · use base
      · use config.bench.instanceName, eq.symm
    have fresh := not_sameWord_of_mem_interfaceNames (e := e) (n := e.name) (by simp) base
    rw [eq] at fresh
    intro same
    apply fresh
    rw [sameWord_iff]
    exact (sameWord_iff.1 same).symm

/-- A name that a bench makes is no name of the interface of its entity. -/
theorem not_sameWord_of_mem_own {n : Identifier} {t : Text} (hn : n ∈ e.interfaceNames)
    (ht : t ∈ (flagBase :: processBases (Roles.ofPorts e.ports)).map (freshName e) ++
      [freshName e config.bench.instanceName]) :
  ¬n.text.sameWord t
  := by
  have fresh : ∀ base, ¬n.text.sameWord (freshName e base) := by
    intro base
    apply not_sameWord_of_mem_interfaceNames (List.mem_append_left _ hn)
  rw [List.mem_append, List.mem_map, List.mem_singleton] at ht
  rcases ht with ⟨base, -, rfl⟩ | rfl
  · apply fresh
  · apply fresh

/-- The names that are declared are different exactly if the generics and the ports have different
names and the label of the instance is no other name that the bench makes. -/
theorem pairwise_declared_iff (e : Entity) (config : Config) :
  (declared e config).Pairwise (fun d d' => ¬d.name.sameWord d'.name) ↔
    (∀ g ∈ e.generics, ∀ p ∈ e.ports, ¬g.name.same p.name) ∧
      ∀ d ∈ declaredOwn e, ¬d.name.sameWord (declaredInstance e config).name
  := by
  have names : (declared e config).Pairwise (fun d d' => ¬d.name.sameWord d'.name) ↔
      ((declared e config).map (·.name)).Pairwise fun n n' => ¬n.sameWord n' := by
    rw [List.pairwise_map]
  have generics := pairwise_text e.generics_distinct
  have ports := pairwise_text e.ports_distinct
  have apart : ∀ n ∈ e.generics.map (·.name.text) ++ e.ports.map (·.name.text),
      ∀ t ∈ (flagBase :: processBases (Roles.ofPorts e.ports)).map (freshName e) ++
        [freshName e config.bench.instanceName], ¬n.sameWord t := by
    intro n hn t ht
    obtain ⟨i, hi, rfl⟩ := exists_of_mem_names hn
    apply not_sameWord_of_mem_own hi ht
  rw [names, map_name_declared, List.append_assoc, List.pairwise_append, List.pairwise_append,
    List.pairwise_append]
  constructor
  · rintro ⟨⟨-, -, interface⟩, ⟨-, -, label⟩, -⟩
    constructor
    · intro g hg p hp same
      apply interface _ (List.mem_map_of_mem hg) _ (List.mem_map_of_mem hp)
      rw [sameWord_iff]
      exact Identifier.same_iff.1 same
    · intro d hd
      apply label _ _ _ (List.mem_singleton_self _)
      rw [map_freshName_own]
      apply List.mem_map_of_mem hd
  · rintro ⟨interface, label⟩
    refine ⟨⟨generics, ports, ?_⟩, ⟨pairwise_own e _, List.pairwise_singleton _ _, ?_⟩, apart⟩
    · intro n hn n' hn' same
      obtain ⟨g, hg, rfl⟩ := List.mem_map.1 hn
      obtain ⟨p, hp, rfl⟩ := List.mem_map.1 hn'
      apply interface g hg p hp
      rw [Identifier.same_iff]
      exact sameWord_iff.1 same
    · intro n hn n' hn'
      rw [map_freshName_own] at hn
      obtain ⟨d, hd, rfl⟩ := List.mem_map.1 hn
      obtain rfl := List.mem_singleton.1 hn'
      apply label d hd

/-- The label of the instance is no other name that the bench makes if it is not asked for by one
of their bases, with or without a number. -/
theorem not_sameWord_declaredInstance
    (h : ∀ base ∈ ownBases, ∀ i, ¬config.bench.instanceName.sameWord (candidate base i))
    (hd : d ∈ declaredOwn e) :
  ¬d.name.sameWord (declaredInstance e config).name
  := by
  obtain ⟨base, hbase, eq⟩ : ∃ base ∈ ownBases, freshName e base = d.name := by
    have listed : d.name ∈ (declaredOwn e).map (·.name) := List.mem_map_of_mem hd
    rw [← map_freshName_own] at listed
    obtain ⟨base, hbase, eq⟩ := List.mem_map.1 listed
    use base, (sublist_ownBases _).subset hbase, eq
  rw [← eq]
  apply not_sameWord_freshName e
  · intro i same
    cases i with
    | zero =>
      apply h base hbase 0
      rw [sameWord_iff]
      exact (sameWord_iff.1 same).symm
    | succ i => apply not_sameWord_candidate_succ hbase _ i same
  · apply h base hbase

/-- The names that a bench declares are written in it, and none of them is the name of its entity.
They are different up to case if and only if no generic has the name of a port and the label of the
instance is neither the flag nor the label of a process, which holds if no label is configured that
is made like one of their names. -/
theorem declared_generate (h : generate e config = .ok bench) :
  (∀ d ∈ declared e config, d.text <:+: bench ∧ ¬d.name.sameWord e.name.text) ∧
    ((declared e config).Pairwise (fun d d' => ¬d.name.sameWord d'.name) ↔
      (∀ g ∈ e.generics, ∀ p ∈ e.ports, ¬g.name.same p.name) ∧
        ∀ d ∈ declaredOwn e, ¬d.name.sameWord (declaredInstance e config).name) ∧
    ((∀ base ∈ ownBases, ∀ i, ¬config.bench.instanceName.sameWord (candidate base i)) →
      ∀ d ∈ declaredOwn e, ¬d.name.sameWord (declaredInstance e config).name)
  := by
  refine ⟨?_, pairwise_declared_iff e config, ?_⟩
  · intro d hd
    use isInfix_generate h hd
    apply not_sameWord_name_of_mem_declared (exists_parts_of_generate h).1 hd
  · intro apart d hd
    apply not_sameWord_declaredInstance apart hd

/-- The names that the bench of the shifter declares are different. -/
theorem declared_generate_shifter :
  ∃ bench, generate shifter Config.standard = .ok bench ∧
    (∀ d ∈ declared shifter Config.standard, d.text <:+: bench) ∧
    (declared shifter Config.standard).Pairwise fun d d' => ¬d.name.sameWord d'.name
  := by
  obtain ⟨bench, h⟩ := (exists_generate_iff shifter Config.standard).2 (by decide +kernel)
  obtain ⟨written, distinct, label⟩ := declared_generate h
  have apart : ∀ base ∈ ownBases, ∀ i,
      ¬Config.standard.bench.instanceName.sameWord (candidate base i) := by
    have begins : ∀ base ∈ ownBases, base ≠ [] ∧
        Config.standard.bench.instanceName.head?.map Char.toLower ≠
          base.head?.map Char.toLower := by decide
    intro base hbase
    apply not_sameWord_candidate (begins base hbase).1 (begins base hbase).2
  use bench, h, fun d hd => (written d hd).1, distinct.2 ⟨by decide, label apart⟩

/-- The source of an entity with a generic and a port of one name. -/
def overlapSource : Text :=
  "entity x is generic (size : integer := 1); port (size : in boolean); end;"

/-- The entity that `overlapSource` declares. -/
def overlap : Entity where
  name := ⟨"x", by decide⟩
  generics := [⟨⟨"size", by decide⟩, "integer", some "1"⟩]
  ports := [⟨⟨"size", by decide⟩, .input, .boolean, none, none, by decide⟩]
  generics_distinct := by decide
  ports_distinct := by decide

/-- The source of an entity without an interface. -/
def bareSource : Text := "entity x is end;"

/-- The entity that `bareSource` declares. -/
def bare : Entity where
  name := ⟨"x", by decide⟩
  generics := []
  ports := []
  generics_distinct := List.nodup_nil
  ports_distinct := List.nodup_nil

/-- The configuration that labels the instance like the flag. -/
def flagLabelled : Config :=
  { Config.standard with bench := { Config.standard.bench with instanceName := flagBase } }

/-- A bench declares a name twice for a generic and a port of that name, and for an instance that is
labelled like the flag. -/
theorem not_pairwise_declared :
  (Entity.ofSource overlapSource = .ok overlap ∧
      Identifier.fault? Config.standard.bench.instanceName = none ∧
      (generate overlap Config.standard).isOk ∧
      ¬(declared overlap Config.standard).Pairwise fun d d' => ¬d.name.sameWord d'.name) ∧
    Entity.ofSource bareSource = .ok bare ∧
      Identifier.fault? flagLabelled.bench.instanceName = none ∧
      (generate bare flagLabelled).isOk ∧
      ¬(declared bare flagLabelled).Pairwise fun d d' => ¬d.name.sameWord d'.name
  := by
  refine ⟨⟨?_, ?_, ?_, ?_⟩, ?_, ?_, ?_, ?_⟩ <;> decide +kernel

end Testbench.Bench
