import Testbench.Proofs.Bench.Fault
import Testbench.Proofs.Bench.Name
import Testbench.Proofs.Check.Assigned
import Testbench.Proofs.Check.Missing
import Testbench.Proofs.Stimulus.Plan

/-!
# What a bench drives

In the tokens of a bench that is generated for an entity no output is assigned, the clock and the
reset are assigned twice, the data inputs of one bit once for each row of the table, and every other
data input once for each step of its sequence.
-/

namespace Testbench.Check

open Text Vhdl Stimulus Layout Bench

variable {n t bench : Text} {i j : Nat} {p q : Port} {e : Entity} {config : Config}
  {roles : Roles}

/-! ### The bench -/

theorem assigns_lineEnd (n : Text) :
  Assigns n 0 ['\n']
  := .of_markless (.stop (by decide)) (Firm.of_not_mem (by decide)).markless n

/-- What is written for a port that may be there assigns as often as for the port. -/
theorem assigns_paragraph {index : Option Nat} {write : Port → Except Bench.Error Text}
    {count : Port → Nat} (hw : ∀ p s, write p = .ok s → Assigns n (count p) s)
    (h : paragraph e index write = .ok t) :
  Assigns n ((index.bind (e.ports[·]?)).elim 0 count) t
  := by
  rcases of_paragraph_eq_ok h with ⟨found, rfl⟩ | ⟨p, s, found, written, rfl⟩
  · rw [found]
    apply Assigns.nil
  · rw [found]
    apply (assigns_lineEnd n).none_append (hw p s written)

/-- A fresh name whose base is a word is a word. -/
theorem isWord_freshName {base : Text} (hb : IsWord base) (e : Entity) :
  IsWord (freshName e base)
  := by
  constructor
  · obtain ⟨i, eq, -⟩ := freshName_spec e base
    rw [eq]
    cases i with
    | zero => exact hb.ne_nil
    | succ i => simp [candidate]
  · apply isWordChar_freshName hb.forall_mem

/-- The lines before the architecture have no mark. -/
theorem firm_preamble (e : Entity) {top : Text} (ht : ∀ c ∈ top, isWordChar c) :
  Firm (preamble e top)
  := by
  have fixed : ∀ t : Text, '<' ∉ t → Firm t := fun _ => .of_not_mem
  have titled : Firm ("-- Testbench for entity '" ++ e.name.text ++ "'.\n" : Text) :=
    ((fixed _ (by decide)).append (.word e.name.isWord.forall_mem)).append (fixed _ (by decide))
  have library := fixed "library ieee;\nuse ieee.std_logic_1164.all;\nuse ieee.numeric_std.all;\n\n"
    (by decide +kernel)
  have made := ((titled.append (fixed "-- Generated by " (by decide))).append
    (fixed generator (by decide))).append (fixed ".\n\n" (by decide))
  apply Firm.append _ (fixed _ (by decide))
  apply Firm.append _ (.word ht)
  apply Firm.append _ (fixed _ (by decide))
  apply ((made.append library).append (fixed _ (by decide))).append (.word ht)

/-- The lines before the component have no mark. -/
theorem firm_front (he : MarklessEntity e) (hv : MarklessConfig config) {style : Style}
    {top name : Text} (ht : ∀ c ∈ top, isWordChar c) (hn : ∀ c ∈ name, isWordChar c)
    (h : constants e config style = .ok t) :
  Firm (preamble e top ++ "architecture " ++ name ++ " of " ++ top ++ " is\n" ++ t)
  := by
  apply Firm.append _ (firm_constants he hv h)
  apply Firm.append _ (.of_not_mem (by decide))
  apply Firm.append _ (.word ht)
  apply Firm.append _ (.of_not_mem (by decide))
  apply ((firm_preamble e ht).append (.of_not_mem (by decide))).append (.word hn)

/-- The lines between the component and the instance have no mark. -/
theorem firm_signalLines (he : MarklessEntity e) {style : Style} {done : Text}
    (hd : ∀ c ∈ done, isWordChar c) (h : signals e style = .ok t) :
  Firm ("\n" ++ t ++ line style 1 ("signal " ++ done ++ " : boolean := false;") ++ "begin\n\n")
  := by
  have flag : Firm (line style 1 ("signal " ++ done ++ " : boolean := false;")) := by
    have plain : '<' ∉ ("signal " ++ done ++ " : boolean := false;" : Text) := by
      simp [mark_not_mem_word hd]
    apply ((Firm.spaces _).append (.of_not_mem plain)).append (.of_not_mem (by decide))
  apply Firm.append _ (.of_not_mem (by decide))
  apply Firm.append _ flag
  apply Firm.append (.of_not_mem (by decide)) (firm_signals he h)

/-- The last line assigns nothing. -/
theorem assigns_close {name : Text} (hn : ∀ c ∈ name, isWordChar c) (n : Text) :
  Assigns n 0 ("\nend architecture " ++ name ++ ";\n")
  := by
  have plain : Piece noNames "\nend architecture " := Piece.of_isPlain (by decide)
  have phrase := plain.append_phrase (Phrase.word hn)
  have stop : Piece noNames ";\n" := Piece.of_isPlain (by decide)
  apply Assigns.of_markless (phrase.append_piece stop (by decide) (by decide))
  apply Firm.markless
  apply (Firm.append (.of_not_mem (by decide)) (.word hn)).append (.of_not_mem (by decide))

/-- How often the process for a port that may be there assigns a name. -/
def roleHits (n : Text) (e : Entity) (index : Option Nat) : Nat :=
  (index.bind (e.ports[·]?)).elim 0 (2 * hit n ·)

/-- How often a bench assigns a name. -/
def hits (n : Text) (e : Entity) (roles : Roles) (plan : Plan) : Nat :=
  roleHits n e roles.clock + roleHits n e roles.reset +
    (tableHits n e plan + sequenceHits n e plan)

/-- A bench assigns a name other than its flag in its processes only. -/
theorem assigns_generate (quiet : QuietEntity noNames e) (he : MarklessEntity e)
    (hc : PlainConfig config) (hv : MarklessConfig config) (hp : MarklessPlan e (plan e config))
    (differ : (freshName e "tb_done").lower ≠ n) (h : generate e config = .ok bench) :
  Assigns n (hits n e (Roles.ofPorts e.ports) (plan e config)) bench
  := by
  obtain ⟨-, constants, signals, clock, reset, stimulus, hconstants, hsignals, hclock, hreset,
    hstimulus, written⟩ := exists_parts_of_generate h
  have others := not_noNames "others"
  have values : ∀ entry ∈ config.generics.entries, Quiet noNames entry.2 :=
    fun entry mem => (hc.sealed_value mem).quiet (by simp)
  have word : IsWord (freshName e "tb_done") := isWord_freshName (by constructor <;> decide) e
  have label := isWordChar_freshName hc.instanceName e
  have top := hc.topName e
  have front := Assigns.of_markless
    (piece_front others quiet values top hc.architectureName hconstants).1
    (firm_front he hv top hc.architectureName hconstants).markless n
  have component := Assigns.of_markless (piece_component quiet _ 1).1
    (firm_component he (config.style.merge Style.standard) 1).markless n
  have between := Assigns.of_markless (piece_signalLines others quiet word.forall_mem hsignals)
    (firm_signalLines he word.forall_mem hsignals).markless n
  have inst := Assigns.of_markless (piece_instantiation quiet label _ 1).1
    (firm_instantiation he label (config.style.merge Style.standard) 1).markless n
  have clock := assigns_paragraph (fun p s => assigns_clockProcess word.forall_mem n) hclock
  have reset := assigns_paragraph (fun p s => assigns_resetProcess n) hreset
  have stimulus := assigns_stimulusProcess hp word differ hstimulus
  have close := assigns_close hc.architectureName n
  have whole := (((front.none_append component).none_append between).none_append inst).none_append
    ((((clock.append reset).append_none (assigns_lineEnd n)).append stimulus).append_none close)
  rw [written, parts]
  simp only [List.flatten_cons, List.flatten_nil, List.append_assoc, List.append_nil] at whole ⊢
  exact whole

/-! ### The plan -/

/-- The plan of an entity has the mark only where the right bounds of its ranges have it. -/
theorem marklessPlan_ofEntity (quiet : QuietEntity noNames e) (he : MarklessEntity e)
    (roles : Roles) (limits : Limits) (delay : Delay) :
  MarklessPlan e (Plan.ofEntity e roles limits delay)
  := by
  have plan := quietPlan_ofEntity quiet.rightBound roles limits delay
  have right : ∀ p ∈ e.ports, ∀ r ∈ p.range, MarklessValue (.setBit r.right) :=
    fun p hp r hr => marklessValue_setBit ((he.port hp).1 r hr).2
  have markless := common_marklessValue.all_ofEntity right roles limits delay
  constructor
  · intro c hc row hrow
    constructor
    · rw [combinations_ofEntity] at hc
      split at hc
      · contradiction
      · obtain rfl := Option.some.inj hc
        rw [combinations, filterMap_type] at hrow
        obtain ⟨f, rfl⟩ := exists_of_mem_rows hrow
        rw [length_row, List.length_map]
        rfl
    · intro v hv
      use plan.rows c hc row hrow v hv, markless.rows c hc row hrow v hv
  · intro sequence mem s hs
    use plan.steps sequence mem s hs, markless.steps sequence mem s hs

/-! ### Counting -/

/-- Ports of an entity with the same name are the same port. -/
theorem eq_of_key_eq (hp : e.ports[i]? = some p) (hq : e.ports[j]? = some q)
    (h : q.name.key = p.name.key) :
  j = i
  := by
  obtain ⟨bound, -⟩ := List.getElem?_eq_some_iff.1 hq
  apply (List.getElem?_inj (by simpa using bound) e.ports_distinct).1
  rw [List.getElem?_map, List.getElem?_map, hp, hq, Option.map_some, Option.map_some, h]

/-- An assignment to a port counts for the name of a port exactly if it is that port. -/
theorem hit_eq (hp : e.ports[i]? = some p) (hq : e.ports[j]? = some q) :
  hit p.name.key q = if j = i then 1 else 0
  := by
  rw [hit]
  by_cases same : j = i
  · obtain rfl := same
    obtain rfl := Option.some.inj (hq.symm.trans hp)
    rw [if_pos rfl, if_pos rfl]
  · rw [if_neg same, if_neg fun key => same (eq_of_key_eq hp hq key)]

/-- Among ports with different indices one counts as often as its index is listed. -/
theorem sum_filterMap_hit {indices : List Nat} (nodup : indices.Nodup) (hp : e.ports[i]? = some p)
    (count : Port → Nat) :
  ((indices.filterMap (e.ports[·]?)).map fun q => count q * hit p.name.key q).sum =
    if i ∈ indices then count p else 0
  := by
  induction indices with
  | nil => rfl
  | cons j indices ih =>
    obtain ⟨fresh, nodup⟩ := List.nodup_cons.1 nodup
    have rest := ih nodup
    cases hq : e.ports[j]? with
    | none =>
      have other : i ≠ j := by
        rintro rfl
        rw [hp] at hq
        contradiction
      rw [List.filterMap_cons_none hq, rest]
      simp [other]
    | some q =>
      rw [List.filterMap_cons_some hq, List.map_cons, List.sum_cons, rest, hit_eq hp hq]
      by_cases same : j = i
      · obtain rfl := same
        obtain rfl := Option.some.inj (hq.symm.trans hp)
        simp [fresh]
      · simp [same, Ne.symm same]

/-- The process for a port assigns that port twice and no other port. -/
theorem roleHits_eq (hp : e.ports[i]? = some p) (index : Option Nat) :
  roleHits p.name.key e index = if index = some i then 2 else 0
  := by
  cases index with
  | none => rfl
  | some j =>
    rw [roleHits, Option.bind_some]
    cases hq : e.ports[j]? with
    | none =>
      have other : j ≠ i := by
        rintro rfl
        rw [hp] at hq
        contradiction
      simp [other]
    | some q =>
      rw [Option.elim_some, hit_eq hp hq]
      by_cases same : j = i
      · simp [same]
      · simp [same]

/-- The table assigns each of its ports once in each row. -/
theorem tableHits_ofEntity (hp : e.ports[i]? = some p) (roles : Roles) (limits : Limits)
    (delay : Delay) :
  tableHits p.name.key e (Plan.ofEntity e roles limits delay) =
    if i ∈ dataInputs e roles DataType.isScalarBit then
      (Stimulus.combinations e (dataInputs e roles DataType.isScalarBit) limits delay).rows.length
    else 0
  := by
  have sum := sum_filterMap_hit (nodup_dataInputs e roles DataType.isScalarBit) hp fun _ => 1
  simp only [Nat.one_mul] at sum
  by_cases empty : dataInputs e roles DataType.isScalarBit = []
  · rw [tableHits, combinations_ofEntity, if_pos empty, empty, if_neg List.not_mem_nil]
  · rw [tableHits, combinations_ofEntity, if_neg empty]
    simp only [Stimulus.combinations] at sum ⊢
    rw [sum, mul_ite, Nat.mul_one, Nat.mul_zero]

/-- The sequences assign each of their ports once in each step. -/
theorem sequenceHits_ofEntity (hp : e.ports[i]? = some p) (roles : Roles) (limits : Limits)
    (delay : Delay) :
  sequenceHits p.name.key e (Plan.ofEntity e roles limits delay) =
    if i ∈ dataInputs e roles (!·.isScalarBit) then (sequence p delay).length else 0
  := by
  have listed : drivers e (Plan.ofEntity e roles limits delay) =
      ((dataInputs e roles (!·.isScalarBit)).filterMap (e.ports[·]?)).map fun q =>
        (q, sequence q delay) := by
    rw [drivers, Plan.ofEntity, List.filterMap_filterMap, List.map_filterMap]
    congr 1
    funext j
    cases hq : e.ports[j]? with
    | none => rfl
    | some q => simp [hq]
  rw [sequenceHits, listed, List.map_map]
  exact sum_filterMap_hit (nodup_dataInputs e roles (!·.isScalarBit)) hp
    fun q => (sequence q delay).length

/-! ### The ports of an entity -/

/-- How often the bench of an entity assigns a port, by the roles and the plan of the entity. -/
theorem hits_plan (hp : e.ports[i]? = some p) (config : Config) :
  hits p.name.key e (Roles.ofPorts e.ports) (plan e config) =
    (if (Roles.ofPorts e.ports).clock = some i then 2 else 0) +
      (if (Roles.ofPorts e.ports).reset = some i then 2 else 0) +
      ((if i ∈ dataInputs e (Roles.ofPorts e.ports) DataType.isScalarBit then
          (Stimulus.combinations e (dataInputs e (Roles.ofPorts e.ports) DataType.isScalarBit)
            config.limits config.bench.settleDelay).rows.length
        else 0) +
        if i ∈ dataInputs e (Roles.ofPorts e.ports) (!·.isScalarBit) then
          (sequence p config.bench.settleDelay).length
        else 0)
  := by
  rw [hits, roleHits_eq hp, roleHits_eq hp, plan, tableHits_ofEntity hp, sequenceHits_ofEntity hp]

/-- A bench drives the ports of its entity as it is planned: it assigns no output, the clock and
the reset twice, each other input of one bit once for each row of the table, and each input that is
left once for each step of its sequence.  This holds as long as no text that the bench repeats has
the mark of assignments. -/
theorem assigned_generate {source : Text} (read : Entity.ofSource source = .ok e)
    (hc : PlainConfig config) (he : MarklessEntity e) (hv : MarklessConfig config)
    (h : generate e config = .ok bench) (hp : e.ports[i]? = some p) :
  (p.mode = .output → assigned p.name.key (tokens bench) = 0) ∧
    ((Roles.ofPorts e.ports).clock = some i → assigned p.name.key (tokens bench) = 2) ∧
    ((Roles.ofPorts e.ports).reset = some i → assigned p.name.key (tokens bench) = 2) ∧
    (p.mode.isInput → ¬(Roles.ofPorts e.ports).isControl i →
      (p.type.isScalarBit → ∃ c, (plan e config).combinations = some c ∧
        assigned p.name.key (tokens bench) = c.rows.length) ∧
      (¬p.type.isScalarBit →
        assigned p.name.key (tokens bench) = (sequence p config.bench.settleDelay).length))
  := by
  have quiet : QuietEntity noNames e := by
    apply quietEntity_of_isRead (Entity.isRead_of_ofSource_eq_ok read) <;> simp
  have differ : (freshName e "tb_done").lower ≠ p.name.key := by
    intro same
    have listed : p.name ∈ e.interfaceNames ++ [e.name] := by
      apply List.mem_append_left
      apply List.mem_append_left _ (List.mem_map_of_mem (List.mem_of_getElem? hp))
    apply not_sameWord_of_mem_interfaceNames listed "tb_done"
    exact sameWord_iff.2 same.symm
  have plan := marklessPlan_ofEntity quiet he (Roles.ofPorts e.ports) config.limits
    config.bench.settleDelay
  have count := (assigns_generate quiet he hc hv plan differ h).count
  rw [hits_plan hp] at count
  have data : ∀ q : DataType → Bool, i ∈ dataInputs e (Roles.ofPorts e.ports) q ↔
      p.mode.isInput ∧ ¬(Roles.ofPorts e.ports).isControl i ∧ q p.type := by
    intro q
    simp [mem_dataInputs, hp]
  refine ⟨?_, ?_, ?_, ?_⟩
  · intro output
    have notInput : ¬p.mode.isInput := by simp [output, Mode.isInput]
    have other : ¬(Roles.ofPorts e.ports).isControl i :=
      fun control => notInput (Roles.of_isControl hp control).1
    rw [Roles.isControl_iff, not_or] at other
    simpa [data, notInput, other] using count
  · intro clock
    have control := Roles.isControl_iff.2 (.inl clock)
    have apart : (Roles.ofPorts e.ports).reset ≠ some i := by
      intro reset
      obtain ⟨-, -, -, apart⟩ := Roles.exists_of_reset reset
      apply apart clock
    simpa [data, clock, apart, control] using count
  · intro reset
    have control := Roles.isControl_iff.2 (.inr reset)
    obtain ⟨-, -, -, apart⟩ := Roles.exists_of_reset reset
    simpa [data, reset, apart, control] using count
  · intro input other
    have roles := Roles.isControl_iff.not.1 other
    rw [not_or] at roles
    constructor
    · intro scalar
      have listed := (data DataType.isScalarBit).2 ⟨input, other, scalar⟩
      use Stimulus.combinations e (dataInputs e (Roles.ofPorts e.ports) DataType.isScalarBit)
        config.limits config.bench.settleDelay
      constructor
      · rw [Bench.plan, combinations_ofEntity, if_neg (List.ne_nil_of_mem listed)]
      · simpa [data, input, other, roles, scalar] using count
    · intro type
      simpa [data, input, other, roles, type] using count

/-- The source of an entity with a clock, a reset and data inputs of both kinds. -/
def latchSource : Text :=
  "entity latch is port (clk, Rst_N, Gate, Hold : bit; Data : bit_vector(1 downto 0); " ++
    "State : out bit); end;"

/-- The entity that `latchSource` declares. -/
def latch : Entity where
  name := ⟨"latch", by decide⟩
  generics := []
  ports :=
    [⟨⟨"clk", by decide⟩, .input, .bit, none, none, isSome_range_bit⟩,
      ⟨⟨"Rst_N", by decide⟩, .input, .bit, none, none, isSome_range_bit⟩,
      ⟨⟨"Gate", by decide⟩, .input, .bit, none, none, isSome_range_bit⟩,
      ⟨⟨"Hold", by decide⟩, .input, .bit, none, none, isSome_range_bit⟩,
      ⟨⟨"Data", by decide⟩, .input, .bitVector, some ⟨.int 1, .int 0, .down⟩, none, rfl⟩,
      ⟨⟨"State", by decide⟩, .output, .bit, none, none, isSome_range_bit⟩]
  generics_distinct := List.nodup_nil
  ports_distinct := by decide

/-- The bench of the latch assigns the clock and the reset twice, the other inputs of one bit in
four rows, the vector in six steps, and the output never. -/
theorem assigned_generate_latch :
  Entity.ofSource latchSource = .ok latch ∧ PlainConfig Config.standard ∧
    ∃ bench, generate latch Config.standard = .ok bench ∧
      assigned "clk" (tokens bench) = 2 ∧ assigned "rst_n" (tokens bench) = 2 ∧
      assigned "gate" (tokens bench) = 4 ∧ assigned "hold" (tokens bench) = 4 ∧
      assigned "data" (tokens bench) = 6 ∧ assigned "state" (tokens bench) = 0
  := by
  have read : Entity.ofSource latchSource = .ok latch := by decide +kernel
  refine ⟨read, plainConfig_standard, ?_⟩
  have entity : MarklessEntity latch := by
    have absent : ∀ t ∈ keptTexts latch, '<' ∉ t := by decide
    intro t ht
    apply (Firm.of_not_mem (absent t ht)).markless
  have values : MarklessConfig Config.standard := by
    have none : Config.standard.generics.entries = [] := rfl
    simp [MarklessConfig, none]
  obtain ⟨bench, h⟩ := (exists_generate_iff latch Config.standard).2 (by decide +kernel)
  have driven := fun i p (hp : latch.ports[i]? = some p) =>
    assigned_generate read plainConfig_standard entity values h hp
  obtain ⟨c, planned, four⟩ :
      ∃ c, (plan latch Config.standard).combinations = some c ∧ c.rows.length = 4 :=
    ⟨_, rfl, by decide +kernel⟩
  have row : ∀ {n : Nat}, (∃ c, (plan latch Config.standard).combinations = some c ∧
      n = c.rows.length) → n = 4 := by
    rintro n ⟨c', planned', rfl⟩
    obtain rfl := Option.some.inj (planned.symm.trans planned')
    exact four
  have clock : assigned "clk" (tokens bench) = 2 := (driven 0 _ rfl).2.1 (by decide +kernel)
  have reset : assigned "rst_n" (tokens bench) = 2 := (driven 1 _ rfl).2.2.1 (by decide +kernel)
  have gate : assigned "gate" (tokens bench) = 4 :=
    row (((driven 2 _ rfl).2.2.2 rfl (by decide +kernel)).1 rfl)
  have hold : assigned "hold" (tokens bench) = 4 :=
    row (((driven 3 _ rfl).2.2.2 rfl (by decide +kernel)).1 rfl)
  have data : assigned "data" (tokens bench) = 6 :=
    ((driven 4 _ rfl).2.2.2 rfl (by decide +kernel)).2 (by decide)
  have state : assigned "state" (tokens bench) = 0 := (driven 5 _ rfl).1 rfl
  use bench, h, clock, reset, gate, hold, data, state

end Testbench.Check
