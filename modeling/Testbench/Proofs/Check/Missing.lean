import Testbench.Proofs.Check.Bench
import Testbench.Proofs.Check.Entity

/-!
# What a generated bench lacks

A bench that is generated for an entity lacks of another entity with its name the ports that
the first entity does not have, and nothing else.  This holds as long as no text that the bench
repeats associates one of these ports by chance.
-/

namespace Testbench.Check

open Vhdl Bench

variable {names : Text → Prop} {e e' : Entity} {config : Config} {t bench : Text}

/-! ### Configurations -/

/-- A configuration is plain when its names consist of word characters, and no comment begins
and no string stays open in the values of its generics. -/
structure PlainConfig (config : Config) : Prop extends PlainNames config where
  even : ∀ entry ∈ config.generics.entries, Even (entry.2.count '"')
  noLineComment : ∀ entry ∈ config.generics.entries, ¬['-', '-'] <:+: entry.2
  noBlockComment : ∀ entry ∈ config.generics.entries, ¬['/', '*'] <:+: entry.2

theorem PlainConfig.sealed_value (hc : PlainConfig config) {entry : Text × Text}
    (h : entry ∈ config.generics.entries) :
  Sealed entry.2
  := by
  constructor
  · apply (List.isChain_isInfix entry.2).imp
    intro a b part
    constructor
    · rintro ⟨rfl, rfl⟩
      apply hc.noLineComment entry h part
    · rintro ⟨rfl, rfl⟩
      apply hc.noBlockComment entry h part
  · apply hc.even entry h

/-! ### Names that are not mentioned -/

/-- A name is not mentioned in a bench beside the ports when it is not the word for others, no
generic, and no word of a text of the entity or of a configured value. -/
structure Unmentioned (e : Entity) (config : Config) (name : Text) : Prop where
  notOthers : name ≠ "others"
  notGeneric : ∀ g ∈ e.generics, g.name.key ≠ name
  notInText : ∀ t ∈ keptTexts e, .word name ∉ tokens t
  notInValue : ∀ entry ∈ config.generics.entries, .word name ∉ tokens entry.2

instance (e : Entity) (config : Config) (name : Text) : Decidable (Unmentioned e config name) :=
  decidable_of_iff
    (name ≠ "others" ∧ (∀ g ∈ e.generics, g.name.key ≠ name) ∧
      (∀ t ∈ keptTexts e, .word name ∉ tokens t) ∧
      ∀ entry ∈ config.generics.entries, .word name ∉ tokens entry.2)
    ⟨fun ⟨others, generic, text, value⟩ => ⟨others, generic, text, value⟩,
      fun ⟨others, generic, text, value⟩ => ⟨others, generic, text, value⟩⟩

/-- A name is foreign to the bench of an entity when it is no port, not mentioned beside the ports
and before no arrow. -/
structure Foreign (e : Entity) (config : Config) (name : Text) : Prop where
  notPort : ∀ p ∈ e.ports, p.name.key ≠ name
  unmentioned : Unmentioned e config name
  noArrow : ¬PrecedesArrow e name

/-- The bench of an entity that is read drives the entity and associates no foreign name. -/
theorem drives_generate (he : e.IsRead) (hc : PlainConfig config)
    (h : generate e config = .ok bench) :
  Drives e (tokens bench) ∧ ∀ n, Foreign e config n → associates n (tokens bench) = false
  := by
  have quiet : QuietEntity (Foreign e config) e := by
    apply quietEntity_of_isRead he
    · intro g hg hn
      apply hn.unmentioned.notGeneric g hg rfl
    · intro p hp hn
      apply hn.notPort p hp rfl
    · intro n hn
      apply hn.unmentioned.notInText
    · intro n hn
      apply hn.noArrow
  have values : ∀ entry ∈ config.generics.entries, Quiet (Foreign e config) entry.2 :=
    fun entry mem => (hc.sealed_value mem).quiet fun n hn => hn.unmentioned.notInValue entry mem
  have others : ¬Foreign e config "others" := fun hn => hn.unmentioned.notOthers rfl
  obtain ⟨silent, drives⟩ := drives_assemble others quiet values hc.toPlainNames
    (quietPlan_ofEntity quiet.rightBound _ _ _) h
  use drives
  intro n hn
  apply silent.associates n hn

/-- Tokens that drive an entity that is read associate the names that precede an arrow in it. -/
theorem Drives.associates_of_precedesArrow (he : e.IsRead) {ts : List Token} (drives : Drives e ts)
    {n : Text} (h : PrecedesArrow e n) :
  Check.associates n ts
  := by
  obtain ⟨p, hp, r, hr, rfl, arrow⟩ := h
  have bound : ∀ b, b = r.left ∨ b = r.right → Quiet (fun _ => False) b.text :=
    fun b hb => (sealed_bound (he.ports p hp) hr hb).quiet fun _ => False.elim
  apply associates_of_isInfix _ (drives.subtypes p hp)
  apply associates_subtype hr (bound _ (Or.inl rfl)) (bound _ (Or.inr rfl)) arrow

/-! ### What is missing -/

/-- The ports of an entity whose names are no port names of another one. -/
def newPorts (e e' : Entity) : List Port :=
  e.ports.filter fun p => !e'.ports.any fun q => q.name.same p.name

theorem mem_newPorts {p : Port} :
  p ∈ newPorts e e' ↔ p ∈ e.ports ∧ ∀ q ∈ e'.ports, q.name.key ≠ p.name.key
  := by
  simp [newPorts, Identifier.same]

theorem newPorts_self (e : Entity) :
  newPorts e e = []
  := by
  rw [List.eq_nil_iff_forall_not_mem]
  intro p hp
  obtain ⟨mem, new⟩ := mem_newPorts.1 hp
  apply new p mem rfl

/-- Tokens that drive an entity lack of an entity with its name the ports that they do not
associate. -/
theorem Drives.missingFrom {ts : List Token} (drives : Drives e' ts)
    (same : e.name.same e'.name) :
  missingFrom e ts =
    (e.ports.filter fun p => !Check.associates p.name.key ts).map fun p => .port p.name.text
  := by
  have key := Identifier.same_iff.1 same
  simp [Check.missingFrom, key, drives.declares, drives.instances]

/-- Tokens that drive an entity lack exactly the new ports of another entity with its name if and
only if they associate none of them. -/
theorem Drives.missingFrom_eq_iff {ts : List Token} (drives : Drives e' ts)
    (same : e.name.same e'.name) :
  Check.missingFrom e ts = (newPorts e e').map (fun p => .port p.name.text) ↔
    ∀ p ∈ newPorts e e', Check.associates p.name.key ts = false
  := by
  rw [drives.missingFrom same]
  constructor
  · intro eq p hp
    have listed : Missing.port p.name.text ∈ (newPorts e e').map fun p => .port p.name.text :=
      List.mem_map.2 ⟨p, hp, rfl⟩
    rw [← eq] at listed
    obtain ⟨q, hq, name⟩ := List.mem_map.1 listed
    have key : q.name.key = p.name.key := congrArg Text.lower (Missing.port.inj name)
    rw [← key]
    simpa using (List.mem_filter.1 hq).2
  · intro apart
    congr 1
    rw [newPorts]
    apply List.filter_congr
    intro p hp
    cases known : e'.ports.any fun q => q.name.same p.name with
    | true =>
      obtain ⟨q, hq, same⟩ := List.any_eq_true.1 known
      rw [← Identifier.same_iff.1 same, drives.associates q hq]
    | false =>
      have new : p ∈ newPorts e e' := List.mem_filter.2 ⟨hp, by rw [known]; rfl⟩
      rw [apart p new]

/-- What a bench that is generated for an entity lacks of an entity with its name: never the
component and never the instance.  Of the ports it lacks exactly those that the first entity does
not have, provided that their names are not mentioned in the bench, if and only if none of these
names precedes an arrow.  A bench lacks nothing of the entity that it is generated for. -/
theorem missing_generate {source : Text} (read : Entity.ofSource source = .ok e')
    (hc : PlainConfig config) (h : generate e' config = .ok bench) :
  (∀ e : Entity, e.name.same e'.name →
    .component ∉ missing e bench ∧ .instantiation ∉ missing e bench ∧
      ((∀ p ∈ newPorts e e', Unmentioned e' config p.name.key) →
        (missing e bench = (newPorts e e').map (fun p => .port p.name.text) ↔
          ∀ p ∈ newPorts e e', ¬PrecedesArrow e' p.name.key))) ∧
    missing e' bench = []
  := by
  have isRead := Entity.isRead_of_ofSource_eq_ok read
  obtain ⟨drives, apart⟩ := drives_generate isRead hc h
  constructor
  · intro e same
    refine ⟨?_, ?_, ?_⟩
    · simp [missing, drives.missingFrom same]
    · simp [missing, drives.missingFrom same]
    · intro unmentioned
      rw [missing, drives.missingFrom_eq_iff same]
      constructor
      · intro absent p hp arrow
        have found := drives.associates_of_precedesArrow isRead arrow
        rw [absent p hp] at found
        contradiction
      · intro noArrow p hp
        apply apart p.name.key
        use (mem_newPorts.1 hp).2, unmentioned p hp, noArrow p hp
  · have none := newPorts_self e'
    have lacks := (drives.missingFrom_eq_iff (Identifier.same_iff.2 rfl)).2
      (by rw [none]; simp)
    rwa [none] at lacks

theorem plainConfig_standard :
  PlainConfig Config.standard
  := by
  refine ⟨⟨?_, ?_, ?_⟩, ?_, ?_, ?_⟩ <;> decide

/-- A port of one bit has no range. -/
theorem isSome_range_bit :
  (none : Option Range).isSome = DataType.bit.isVector
  := rfl

/-- An entity with the name of the shifter and a port that the shifter does not have. -/
def loader : Entity where
  name := ⟨"SHIFTER", by decide⟩
  generics := []
  ports :=
    [⟨⟨"D", by decide⟩, .input, .bit, none, none, isSome_range_bit⟩,
      ⟨⟨"Load", by decide⟩, .input, .bit, none, none, isSome_range_bit⟩]
  generics_distinct := by decide
  ports_distinct := by decide

/-- The bench of the shifter lacks nothing of the shifter, and one port of the loader. -/
theorem missing_generate_shifter :
  Entity.ofSource shifterSource = .ok shifter ∧ PlainConfig Config.standard ∧
    ∃ bench, generate shifter Config.standard = .ok bench ∧ missing shifter bench = [] ∧
      missing loader bench = [.port "Load"]
  := by
  refine ⟨ofSource_shifter, plainConfig_standard, ?_⟩
  have generated : (generate shifter Config.standard).isOk := by decide +kernel
  cases h : generate shifter Config.standard with
  | error _ =>
    rw [h] at generated
    contradiction
  | ok bench =>
    obtain ⟨others, own⟩ := missing_generate ofSource_shifter plainConfig_standard h
    obtain ⟨-, -, lacks⟩ := others loader (by decide)
    use bench, rfl, own
    apply ((lacks (by decide +kernel)).2 (by decide +kernel)).trans
    decide

/-- The source of an entity with a port whose name is a direction. -/
def countdownSource : Text := "entity counter is port (downto : in bit); end;"

/-- The entity that `countdownSource` declares. -/
def countdown : Entity where
  name := ⟨"counter", by decide⟩
  generics := []
  ports := [⟨⟨"downto", by decide⟩, .input, .bit, none, none, isSome_range_bit⟩]
  generics_distinct := by decide
  ports_distinct := by decide

/-- The source of an entity with a range whose right bound begins with an arrow. -/
def arrowSource : Text := "entity counter is port (a : in bit_vector(3 downto => 0)); end;"

/-- The entity that `arrowSource` declares. -/
def arrow : Entity where
  name := ⟨"counter", by decide⟩
  generics := []
  ports := [⟨⟨"a", by decide⟩, .input, .bitVector, some ⟨.int 3, .expr "=> 0", .down⟩, none, rfl⟩]
  generics_distinct := by decide
  ports_distinct := by decide

/-- A direction that precedes an arrow counts as associated: the bench of `arrow` lacks nothing of
`countdown`, although `arrow` does not have its port and does not mention its name. -/
theorem missing_countdown :
  Entity.ofSource countdownSource = .ok countdown ∧ Entity.ofSource arrowSource = .ok arrow ∧
    countdown.name.same arrow.name ∧ PlainConfig Config.standard ∧
    (∀ p ∈ newPorts countdown arrow, Unmentioned arrow Config.standard p.name.key) ∧
    ∃ bench, generate arrow Config.standard = .ok bench ∧ missing countdown bench = [] ∧
      missing countdown bench ≠ (newPorts countdown arrow).map fun p => .port p.name.text
  := by
  refine ⟨by decide +kernel, by decide +kernel, by decide, plainConfig_standard,
    by decide +kernel, ?_⟩
  have lacks : (generate arrow Config.standard).map (missing countdown) = .ok [] := by
    decide +kernel
  cases h : generate arrow Config.standard with
  | error _ =>
    rw [h] at lacks
    contradiction
  | ok bench =>
    rw [h] at lacks
    have none : missing countdown bench = [] := Except.ok.inj lacks
    use bench, rfl, none
    rw [none]
    decide

end Testbench.Check
