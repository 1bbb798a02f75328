import Testbench.Proofs.Check.Bench
import Testbench.Proofs.Check.Entity

/-!
# Texts without assignments

Tokens assign something only where their text has the mark of assignments.  The lists of items, the
component, the instance, the constants and the signals of a bench have this mark only where the
entity or the configuration has it.
-/

namespace Testbench.Check

open Text Vhdl Stimulus Layout Bench

variable {s t opening : Text} {a b c : Char} {i : Item} {items : List Item} {style : Style}
  {depth column : Nat} {e : Entity} {config : Config}

/-! ### The mark -/

/-- A text without the mark of assignments. -/
def Markless (t : Text) : Prop := ¬['<', '='] <:+: t

/-- Two characters that are kept behind one another stand behind one another in the source. -/
theorem isInfix_of_isInfix_normalizeFrom (ha : a ≠ ' ') (hb : b ≠ ' ') (region : Region) (g : Gap)
    (t : Text) (h : [a, b] <:+: normalizeFrom region g t) :
  [a, b] <:+: t
  := by
  induction region, g, t using normalizeFrom_induction with
  | nil region g => simp [normalizeFrom] at h
  | opens g mark region r begins ih =>
    rw [normalizeFrom_of_opens begins] at h
    apply (ih h).trans (List.suffix_append mark r).isInfix
  | separator g c r separator ih =>
    rw [normalizeFrom_of_isSeparator separator] at h
    apply (ih h).trans (List.suffix_cons c r).isInfix
  | kept g c r letter joins ih =>
    rw [normalizeFrom_of_joins letter joins] at h
    have kept : [a, b] <:+: c :: normalizeFrom .code .closed r := by
      cases g with
      | opened =>
        apply (List.infix_cons_iff.1 h).resolve_left
        intro first
        apply ha (List.cons_prefix_cons.1 first).1
      | _ => exact h
    rcases List.infix_cons_iff.1 kept with first | rest
    · obtain ⟨rfl, second⟩ := List.cons_prefix_cons.1 first
      have next : (normalizeFrom .code .closed r).head? = some b := by
        obtain ⟨r', eq⟩ := second
        rw [← eq]
        rfl
      have source := ((tidy_normalizeFrom .code .closed r).2 rfl b next).resolve_left hb
      obtain ⟨r', rfl⟩ := List.head?_eq_some_iff.1 source
      apply (List.prefix_append [a, b] r').isInfix
    · apply (ih rest).trans (List.suffix_cons c r).isInfix
  | closes region g mark r ends ih =>
    rw [normalizeFrom_of_closes ends] at h
    apply (ih h).trans (List.suffix_append mark r).isInfix
  | comment region g c r comment inside ih =>
    rw [normalizeFrom_of_comment comment inside] at h
    apply (ih h).trans (List.suffix_cons c r).isInfix

/-- Where the tokens of a text without comments assign, the text has the mark. -/
theorem isInfix_of_lessEqual_mem (q : Bool) (word t : Text)
    (h : .lessEqual ∈ tokenizeFrom q word t) :
  ['<', '='] <:+: t
  := by
  have begun : ∀ word, .lessEqual ∉ wordToken word := by
    intro word
    rw [wordToken]
    split <;> simp
  have mark : ∀ c, .lessEqual ∉ markToken c := by
    intro c
    rw [markToken]
    repeat' split
    all_goals simp
  induction q, word, t using tokenizeFrom_induction with
  | nil q word =>
    rw [tokenizeFrom] at h
    apply absurd h (begun word)
  | quoted word c r ih =>
    rw [tokenizeFrom] at h
    apply (ih h).trans (List.suffix_cons c r).isInfix
  | pair word c d m r two ih =>
    rw [tokenizeFrom_pair two, List.mem_append, List.mem_cons] at h
    rcases h with h | rfl | rest
    · apply absurd h (begun word)
    · cases two
      apply (List.prefix_append ['<', '='] r).isInfix
    · apply (ih rest).trans (List.suffix_append [c, d] r).isInfix
  | letter word c r letter ih =>
    rw [tokenizeFrom_letter letter] at h
    apply (ih h).trans (List.suffix_cons c r).isInfix
  | mark word c r other alone ih =>
    rw [tokenizeFrom_mark other alone] at h
    have rest : .lessEqual ∈ tokenizeFrom (c == '"') [] r := by
      simpa [begun word, mark c] using h
    apply (ih rest).trans (List.suffix_cons c r).isInfix

/-- A text without the mark has no token for it. -/
theorem Markless.lessEqual_not_mem (ht : Markless t) :
  .lessEqual ∉ tokens t
  := by
  intro mem
  apply ht
  apply isInfix_of_isInfix_normalizeFrom (by decide) (by decide) .code .start
  apply isInfix_of_lessEqual_mem false [] _ mem

/-- Texts without the mark have none behind one another unless it stands where they meet. -/
theorem Markless.append (hs : Markless s) (ht : Markless t)
    (meet : s.getLast? = some '<' → t.head? ≠ some '=') :
  Markless (s ++ t)
  := by
  intro mark
  rcases List.infix_append_iff.1 mark with mark | mark | ⟨l, r, split, hl, hr⟩
  · apply hs mark
  · apply ht mark
  · cases l with
    | nil =>
      obtain rfl := split
      apply ht hr.isInfix
    | cons a l =>
      cases l with
      | nil =>
        obtain ⟨rfl, rfl⟩ : '<' = a ∧ ['='] = r := by simpa using split
        obtain ⟨front, rfl⟩ := hl
        obtain ⟨back, rfl⟩ := hr
        apply meet (by simp) rfl
      | cons b l =>
        obtain ⟨rfl, rfl, rfl, rfl⟩ : '<' = a ∧ '=' = b ∧ [] = l ∧ [] = r := by
          simpa [eq_comm] using split
        apply hs hl.isInfix

theorem mark_not_mem_word (ht : ∀ c ∈ t, isWordChar c) :
  '<' ∉ t
  := by
  intro mem
  apply absurd (ht '<' mem) (by decide)

/-- A text is firm when no mark of assignments stands in it or begins at its end. -/
structure Firm (t : Text) : Prop where
  markless : Markless t
  last : t.getLast? ≠ some '<'

namespace Firm

theorem append_markless (hs : Firm s) (ht : Markless t) :
  Markless (s ++ t)
  := hs.markless.append ht fun last => absurd last hs.last

theorem append (hs : Firm s) (ht : Firm t) :
  Firm (s ++ t)
  := by
  use hs.append_markless ht.markless
  rw [List.getLast?_append]
  intro last
  rcases Option.or_eq_some_iff.1 last with last | ⟨-, last⟩
  · apply ht.last last
  · apply hs.last last

/-- A text without the characters of the mark is firm. -/
theorem of_not_mem (ht : '<' ∉ t) :
  Firm t
  := by
  constructor
  · intro mark
    apply ht
    apply mark.subset List.mem_cons_self
  · intro last
    apply ht (List.mem_of_getLast? last)

theorem nil :
  Firm []
  := .of_not_mem (by simp)

theorem flatten {ts : List Text} (h : ∀ t ∈ ts, Firm t) :
  Firm ts.flatten
  := by
  induction ts with
  | nil => apply nil
  | cons t ts ih =>
    apply (h t List.mem_cons_self).append
    apply ih fun t ht => h t (List.mem_cons_of_mem _ ht)

theorem word (ht : ∀ c ∈ t, isWordChar c) :
  Firm t
  := of_not_mem (mark_not_mem_word ht)

theorem spaces (n : Nat) :
  Firm (Text.spaces n)
  := by
  apply of_not_mem
  intro mem
  apply absurd (eq_space_of_mem_spaces mem) (by decide)

end Firm

/-- A text without the mark is firm with a firm text behind it that does not begin with an equals
sign. -/
theorem Markless.append_firm (hs : Markless s) (ht : Firm t) (ne : t ≠ [])
    (head : t.head? ≠ some '=') :
  Firm (s ++ t)
  := by
  use hs.append ht.markless fun _ => head
  rw [List.getLast?_append_of_ne_nil _ ne]
  apply ht.last

/-! ### Items -/

/-- An item whose type and value have no mark. -/
structure MarklessItem (i : Item) : Prop where
  name : IsWord i.name
  type : Markless i.type
  value : ∀ v ∈ i.value, Markless v

namespace MarklessItem

theorem heading (hi : MarklessItem i) (p : Placement) (column : Nat) (mark : Text)
    (hm : Firm mark) :
  Firm (i.name ++ p.padding column i.name ++ mark)
  := ((Firm.word hi.name.forall_mem).append (Firm.spaces _)).append hm

theorem assignment (hi : MarklessItem i) :
  Markless i.assignment ∧ i.assignment.head? ≠ some '='
  := by
  rw [Item.assignment]
  split
  · next v hv =>
    have sign : Firm (" := " : Text) := .of_not_mem (by decide)
    use sign.append_markless (hi.value v hv)
    simp
  · exact ⟨Firm.nil.markless, by simp⟩

theorem interfaceLine (hi : MarklessItem i) (style : Style) (column : Nat) :
  Markless (i.interfaceLine style column)
  := by
  have heading := hi.heading style.types column ": " (.of_not_mem (by decide))
  have mode : Firm i.modePart := by
    rw [Item.modePart]
    split
    · next m _ => cases m <;> exact .of_not_mem (by decide)
    · apply Firm.nil
  apply Markless.append _ hi.assignment.1 fun _ => hi.assignment.2
  apply (heading.append mode).append_markless hi.type

theorem declarationLine (hi : MarklessItem i) {keyword : Text} (hk : Firm keyword) (style : Style)
    (column : Nat) :
  Firm (i.declarationLine keyword style column)
  := by
  have heading := hi.heading style.types column ": " (.of_not_mem (by decide))
  have front : Firm (keyword ++ " " ++ (i.name ++ style.types.padding column i.name ++ ": ")) :=
    (hk.append (.of_not_mem (by decide))).append heading
  have typed : Markless
      (keyword ++ " " ++ (i.name ++ style.types.padding column i.name ++ ": ") ++ i.type) :=
    front.append_markless hi.type
  have whole := (typed.append hi.assignment.1 fun _ => hi.assignment.2).append_firm
    (t := [';']) (.of_not_mem (by decide)) (by decide) (by decide)
  simp only [Item.declarationLine, List.append_assoc] at whole ⊢
  exact whole

theorem associationLine (hi : MarklessItem i) (style : Style) (column : Nat) :
  Firm (i.associationLine style column)
  := (hi.heading style.mappings column "=> " (.of_not_mem (by decide))).append
    (Firm.word hi.name.forall_mem)

end MarklessItem

/-! ### Lists of items -/

/-- Indented lines without the mark have none with a separator and a line end between them. -/
theorem markless_join {ts : List Text} {separator : Text} (hs : Firm (separator ++ "\n"))
    (head : (separator ++ "\n").head? ≠ some '=') (ht : ∀ t ∈ ts, Markless t) :
  Markless (join (separator ++ "\n") ts)
  := by
  induction ts with
  | nil => apply Firm.nil.markless
  | cons t ts ih =>
    have rest := ih fun t mem => ht t (List.mem_cons_of_mem _ mem)
    cases ts with
    | nil =>
      rw [join, List.intercalate_singleton]
      apply ht t List.mem_cons_self
    | cons t' ts =>
      rw [join, List.intercalate_cons_cons, ← join]
      apply Firm.append_markless _ rest
      apply (ht t List.mem_cons_self).append_firm hs (by simp) head

theorem firm_enclosed {ts : List Text} {separator : Text} (ho : Firm opening)
    (hs : Firm (separator ++ "\n")) (head : (separator ++ "\n").head? ≠ some '=')
    (ht : ∀ t ∈ ts, Markless t) (style : Style) (depth : Nat) :
  Firm (enclosed opening separator ts style depth)
  := by
  have lines : ∀ t ∈ ts.map (style.indent (depth + 1) ++ ·), Markless t := by
    intro t mem
    obtain ⟨line, hline, rfl⟩ := List.mem_map.1 mem
    apply (Firm.spaces _).append_markless (ht line hline)
  have front : Firm (style.indent depth ++ opening ++ " (\n") :=
    ((Firm.spaces _).append ho).append (.of_not_mem (by decide))
  have back : Firm ("\n" ++ style.indent depth ++ ")") :=
    (Firm.append (.of_not_mem (by decide)) (Firm.spaces _)).append (.of_not_mem (by decide))
  have whole := (front.append_markless (markless_join hs head lines)).append_firm back (by simp)
    (by simp)
  simp only [enclosed, List.append_assoc] at whole ⊢
  exact whole

theorem firm_interfacePart (hi : ∀ i ∈ items, MarklessItem i) {keyword : Text} (hk : Firm keyword)
    (style : Style) (depth : Nat) :
  Firm (interfacePart items keyword style depth)
  := by
  apply Firm.append _ (.of_not_mem (by decide))
  apply firm_enclosed hk (.of_not_mem (by decide)) (by decide)
  intro t mem
  obtain ⟨i, hi', rfl⟩ := List.mem_map.1 mem
  apply (hi i hi').interfaceLine

theorem firm_declarationPart (hi : ∀ i ∈ items, MarklessItem i) {keyword : Text}
    (hk : Firm keyword) (style : Style) (depth : Nat) :
  Firm (declarationPart items keyword style depth)
  := by
  rw [declarationPart, List.flatMap_def]
  apply Firm.flatten
  intro t mem
  obtain ⟨i, hi', rfl⟩ := List.mem_map.1 mem
  have lineEnd : Firm ['\n'] := .of_not_mem (by decide)
  apply ((Firm.spaces _).append ((hi i hi').declarationLine hk style _)).append lineEnd

theorem firm_associationPart (hi : ∀ i ∈ items, MarklessItem i) {keyword : Text}
    (hk : Firm keyword) (style : Style) (depth : Nat) :
  Firm (associationPart items keyword style depth)
  := by
  apply firm_enclosed (hk.append (.of_not_mem (by decide))) (.of_not_mem (by decide)) (by decide)
  intro t mem
  obtain ⟨i, hi', rfl⟩ := List.mem_map.1 mem
  apply ((hi i hi').associationLine style _).markless

theorem firm_unlessEmpty {write : List Item → Text} (h : Firm (write items)) :
  Firm (unlessEmpty items write)
  := by
  rw [unlessEmpty]
  split
  · apply Firm.nil
  · exact h

/-! ### Components and instances -/

/-- An entity whose texts have no mark. -/
def MarklessEntity (e : Entity) : Prop := ∀ t ∈ keptTexts e, Markless t

/-- A configuration whose values for generics have no mark. -/
def MarklessConfig (config : Config) : Prop :=
  ∀ entry ∈ config.generics.entries, Markless entry.2

namespace MarklessEntity

theorem generic (he : MarklessEntity e) {g : Generic} (hg : g ∈ e.generics) {value : Option Text}
    (hv : ∀ v ∈ value, Markless v) :
  MarklessItem ((Item.ofGeneric g).withValue value)
  where
  name := g.name.isWord
  type := he g.type (List.mem_append_left _ (List.mem_flatMap.2 ⟨g, hg, List.mem_cons_self⟩))
  value := hv

theorem genericDefault (he : MarklessEntity e) {g : Generic} (hg : g ∈ e.generics) :
  ∀ d ∈ g.default, Markless d
  := by
  intro d hd
  apply he d (List.mem_append_left _ (List.mem_flatMap.2 ⟨g, hg, _⟩))
  simpa using .inr hd

/-- The texts that a port keeps have no mark. -/
theorem port (he : MarklessEntity e) {p : Port} (hp : p ∈ e.ports) :
  (∀ r ∈ p.range, Markless r.left.text ∧ Markless r.right.text) ∧ ∀ d ∈ p.default, Markless d
  := by
  have kept : ∀ t ∈ p.range.toList.flatMap (fun r => [r.left.text, r.right.text]) ++
      p.default.toList, Markless t :=
    fun t ht => he t (List.mem_append_right _ (List.mem_flatMap.2 ⟨p, hp, ht⟩))
  constructor
  · intro r hr
    rw [Option.mem_def] at hr
    constructor <;>
      · apply kept
        simp [hr]
  · intro d hd
    apply kept
    rw [Option.mem_def] at hd
    simp [hd]

theorem subtype (he : MarklessEntity e) {p : Port} (hp : p ∈ e.ports) :
  Markless p.subtype
  := by
  have name : Firm p.type.name := Firm.word p.type.isWord_name.forall_mem
  cases hr : p.range with
  | none =>
    rw [Port.subtype, hr]
    exact name.markless
  | some r =>
    obtain ⟨left, right⟩ := (he.port hp).1 r hr
    have direction : Firm (' ' :: (r.direction.name ++ [' '])) := by
      cases r.direction <;> exact .of_not_mem (by decide)
    have front : Firm (p.type.name ++ ['(']) := name.append (.of_not_mem (by decide))
    have directed := (front.append_markless left).append_firm direction (by simp) (by simp)
    have close : Firm [')'] := .of_not_mem (by decide)
    rw [subtype_eq hr, ← List.append_assoc]
    apply ((directed.append_markless right).append_firm close (by simp) (by simp)).markless

theorem portItem (he : MarklessEntity e) {p : Port} (hp : p ∈ e.ports) {value : Option Text}
    (hv : ∀ v ∈ value, Markless v) :
  MarklessItem ((Item.ofPort p).withValue value)
  where
  name := p.name.isWord
  type := he.subtype hp
  value := hv

theorem genericItems (he : MarklessEntity e) :
  ∀ i ∈ genericItems e, MarklessItem i
  := by
  intro i hi
  obtain ⟨g, hg, rfl⟩ := List.mem_map.1 hi
  apply he.generic hg (he.genericDefault hg)

theorem portItems (he : MarklessEntity e) :
  ∀ i ∈ portItems e, MarklessItem i
  := by
  intro i hi
  obtain ⟨p, hp, rfl⟩ := List.mem_map.1 hi
  apply he.portItem hp (he.port hp).2

end MarklessEntity

theorem firm_component (he : MarklessEntity e) (style : Style) (depth : Nat) :
  Firm (component e style depth)
  := by
  have name : Firm e.name.text := Firm.word e.name.isWord.forall_mem
  have lineEnd : Firm ("\n" : Text) := .of_not_mem (by decide)
  have front : Firm (style.indent depth ++ "component " ++ e.name.text ++ "\n") :=
    (((Firm.spaces _).append (.of_not_mem (by decide))).append name).append lineEnd
  have generics : Firm (unlessEmpty (genericItems e)
      (interfacePart · "generic" style (depth + 1) ++ "\n")) := by
    apply firm_unlessEmpty
    apply Firm.append _ lineEnd
    apply firm_interfacePart he.genericItems (.of_not_mem (by decide))
  have ports : Firm (unlessEmpty (portItems e)
      (interfacePart · "port" style (depth + 1) ++ "\n")) := by
    apply firm_unlessEmpty
    apply Firm.append _ lineEnd
    apply firm_interfacePart he.portItems (.of_not_mem (by decide))
  have close : Firm ("end component;\n" : Text) := .of_not_mem (by decide)
  have indent : Firm (style.indent depth) := Firm.spaces _
  rw [component]
  exact (((front.append generics).append ports).append indent).append close

theorem firm_instantiation (he : MarklessEntity e) {label : Text} (hl : ∀ c ∈ label, isWordChar c)
    (style : Style) (depth : Nat) :
  Firm (instantiation e label style depth)
  := by
  have name : Firm e.name.text := Firm.word e.name.isWord.forall_mem
  have lineEnd : Firm ("\n" : Text) := .of_not_mem (by decide)
  have front : Firm (style.indent depth ++ label ++ " : " ++ e.name.text) :=
    (((Firm.spaces _).append (Firm.word hl)).append (.of_not_mem (by decide))).append name
  have generics : Firm (unlessEmpty (genericItems e)
      ("\n" ++ associationPart · "generic" style (depth + 1))) := by
    apply firm_unlessEmpty
    apply lineEnd.append (firm_associationPart he.genericItems (.of_not_mem (by decide)) style _)
  have ports : Firm (unlessEmpty (portItems e)
      ("\n" ++ associationPart · "port" style (depth + 1))) := by
    apply firm_unlessEmpty
    apply lineEnd.append (firm_associationPart he.portItems (.of_not_mem (by decide)) style _)
  apply ((front.append generics).append ports).append (.of_not_mem (by decide))

/-! ### Constants and signals -/

/-- The values that are named for types have no mark. -/
theorem markless_placeholder? {type value : Text} (h : placeholder? type = some value) :
  Markless value
  := by
  have scalar : ∀ entry ∈ scalarPlaceholders, '<' ∉ entry.2 := by decide
  apply Firm.markless
  apply Firm.of_not_mem
  rcases source_of_placeholder? h with ⟨entry, mem, rfl⟩ | rfl
  · apply scalar entry mem
  · decide

/-- A quiet value is written without the mark. -/
theorem firm_literal {v : Value} (hv : QuietValue noNames v) :
  Firm (literal v)
  := by
  cases v with
  | bit b => cases b <;> exact .of_not_mem (by decide)
  | truth b => cases b <;> exact .of_not_mem (by decide)
  | int n =>
    cases n with
    | ofNat n => apply Firm.word fun c hc => isWordChar_of_mem_ofNat hc
    | negSucc n =>
      have digits : Firm (Text.ofNat (n + 1)) := .word fun c hc => isWordChar_of_mem_ofNat hc
      apply Firm.append (s := ['-']) (.of_not_mem (by decide)) digits
  | literal bits =>
    have quote : Firm ['"'] := .of_not_mem (by decide)
    apply (quote.append (.word hv)).append quote
  | fill b => cases b <;> exact .of_not_mem (by decide)
  | setBit index =>
    have aggregate : Firm ("(others => '0')" : Text) := .of_not_mem (by decide)
    exact aggregate

theorem firm_render {v : Value} {p : Port} (hv : QuietValue noNames v)
    (h : render v p = .ok t) :
  Firm t
  := by
  rw [render] at h
  split at h
  · obtain rfl := Except.ok.inj h
    apply firm_literal hv
  · contradiction

theorem firm_constants (he : MarklessEntity e) (hc : MarklessConfig config)
    (h : constants e config style = .ok t) :
  Firm t
  := by
  obtain ⟨items, hitems, rfl⟩ := exists_items_of_constants h
  apply firm_unlessEmpty
  apply Firm.append _ (.of_not_mem (by decide))
  apply firm_declarationPart _ (.of_not_mem (by decide))
  intro i hi
  obtain ⟨g, hg, v, hvalue, rfl⟩ := hitems i hi
  apply he.generic hg
  intro w hw
  obtain rfl := Option.some.inj hw
  rcases source_of_constantValue hvalue with ⟨entry, listed, rfl⟩ | default | placed
  · apply hc entry listed
  · apply he.genericDefault hg v default
  · apply markless_placeholder? placed

theorem firm_signals (he : MarklessEntity e) (h : signals e style = .ok t) :
  Firm t
  := by
  obtain ⟨items, hitems, rfl⟩ := exists_items_of_signals h
  apply firm_declarationPart _ (.of_not_mem (by decide))
  intro i hi
  obtain ⟨p, hp, value, hvalue, rfl⟩ := hitems i hi
  apply he.portItem hp
  intro v hv
  rcases source_of_initialValue hvalue hv with default | impedance | rendered
  · apply (he.port hp).2 v default
  · rcases source_of_highImpedance? impedance with rfl | rfl <;>
      exact (Firm.of_not_mem (by decide)).markless
  · apply (firm_render (common_quietValue.initial _) rendered).markless

end Testbench.Check
