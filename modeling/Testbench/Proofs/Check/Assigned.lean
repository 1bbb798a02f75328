import Testbench.Proofs.Check.Markless
import Mathlib.Algebra.GroupWithZero.Nat

/-!
# Assignments among tokens

`assigned` counts how often tokens assign a name.  The statements of a bench are cut off one by one,
so that the assignments in its processes add up: an assignment to a port counts once for the name of
the port, and everything else counts for no name.
-/

namespace Testbench.Check

open Text Vhdl Stimulus Layout Bench

variable {n s t label : Text} {k l : Nat} {a b ts : List Token} {m : Token}
  {style : Style} {depth : Nat} {p : Port} {v : Value} {e : Entity}

/-! ### Counting -/

/-- How often tokens assign a name: the number of places where the mark of assignments stands
behind it. -/
def assigned (n : Text) : List Token → Nat
  | [] => 0
  | t :: r => (if t = .word n ∧ r.head? = some .lessEqual then 1 else 0) + assigned n r

/-- The assignments in tokens behind one another add up unless one stands where they meet. -/
theorem assigned_append (ha : b.head? ≠ some .lessEqual) (n : Text) (a : List Token) :
  assigned n (a ++ b) = assigned n a + assigned n b
  := by
  induction a with
  | nil => simp [assigned]
  | cons t a ih =>
    have head : (a ++ b).head? = some .lessEqual ↔ a.head? = some .lessEqual := by
      cases a with
      | nil => simp [ha]
      | cons t' a => simp
    rw [List.cons_append, assigned, assigned, ih, Nat.add_assoc]
    simp only [head]

/-- How often an assignment to a port counts for a name. -/
def hit (n : Text) (p : Port) : Nat := if p.name.key = n then 1 else 0

theorem head?_ne_of_not_mem (h : m ∉ ts) :
  ts.head? ≠ some m
  := fun head => h (List.mem_of_head? head)

theorem assigned_of_not_mem (h : .lessEqual ∉ ts) (n : Text) :
  assigned n ts = 0
  := by
  induction ts with
  | nil => rfl
  | cons t ts ih =>
    rw [List.mem_cons, not_or] at h
    rw [assigned, ih h.2, if_neg fun both => head?_ne_of_not_mem h.2 both.2]

/-! ### Texts that assign -/

/-- A text assigns a name a number of times, whatever stands around it. -/
structure Assigns (n : Text) (k : Nat) (t : Text) : Prop where
  cut : Cut t
  head : (tokens t).head? ≠ some .lessEqual
  count : assigned n (tokens t) = k

namespace Assigns

theorem nil :
  Assigns n 0 []
  := ⟨Cut.nil, by simp, rfl⟩

theorem append (hs : Assigns n k s) (ht : Assigns n l t) :
  Assigns n (k + l) (s ++ t)
  := by
  use hs.cut.append ht.cut
  · rw [hs.cut]
    intro head
    rw [List.head?_append, Option.or_eq_some_iff] at head
    rcases head with head | ⟨-, head⟩
    · apply hs.head head
    · apply ht.head head
  · rw [hs.cut, assigned_append ht.head, hs.count, ht.count]

/-- What stands in front of a text without assignments or behind it assigns as often. -/
theorem append_none (hs : Assigns n k s) (ht : Assigns n 0 t) :
  Assigns n k (s ++ t)
  := hs.append ht

theorem none_append (hs : Assigns n 0 s) (ht : Assigns n k t) :
  Assigns n k (s ++ t)
  := by
  have whole := hs.append ht
  rwa [Nat.zero_add] at whole

/-- A text without the mark assigns nothing. -/
theorem of_markless (ht : Piece noNames t) (hm : Markless t) (n : Text) :
  Assigns n 0 t
  where
  cut := ht.cut
  head := head?_ne_of_not_mem hm.lessEqual_not_mem
  count := assigned_of_not_mem hm.lessEqual_not_mem n

/-- A line assigns as often as the text on it. -/
theorem line (cut : CutAtStop t) (head : (tokens t).head? ≠ some .lessEqual)
    (count : assigned n (tokens t) = k) (style : Style) (depth : Nat) :
  Assigns n k (line style depth t)
  := by
  have feed : Cut ['\n'] := cut_stop (by decide)
  have indent : Piece noNames (style.indent depth) := piece_indent ..
  have read : tokens (Bench.line style depth t) = tokens t := by
    rw [Bench.line, List.append_assoc, tokens_indent_append, cut _ (by decide)]
    apply List.append_nil
  rw [← read] at head
  rw [← read] at count
  use (indent.cut.append_cutAtStop cut).append_cons (by decide) feed, head, count

/-- What is made of the members of a list assigns as often as they do together. -/
theorem of_mapM {α : Type} {f : α → Except Bench.Error Text} (count : α → Nat) {xs : List α}
    {texts : List Text} (h : xs.mapM f = .ok texts)
    (hf : ∀ x ∈ xs, ∀ t, f x = .ok t → Assigns n (count x) t) :
  Assigns n (xs.map count).sum texts.flatten
  := by
  rw [mapM_eq_ok] at h
  induction h with
  | nil => apply nil
  | cons here rest ih =>
    rw [List.map_cons, List.sum_cons, List.flatten_cons]
    apply (hf _ List.mem_cons_self _ here).append
    apply ih fun x hx => hf x (List.mem_cons_of_mem _ hx)

end Assigns

/-! ### Statements -/

/-- The bound that a value names has no mark. -/
def MarklessValue (v : Value) : Prop := ∀ index, v = .setBit index → Markless index.text

theorem marklessValue_setBit {index : Bound} (h : Markless index.text) :
  MarklessValue (.setBit index)
  := by
  intro index' eq
  rwa [← Value.setBit.inj eq]

/-- The values that plans give to ports of whatever range name no bound with the mark. -/
theorem common_marklessValue :
  Value.Common MarklessValue
  where
  bit _ _ eq := nomatch eq
  truth _ _ eq := nomatch eq
  int _ _ eq := nomatch eq
  literal _ _ _ eq := nomatch eq
  fill _ _ eq := nomatch eq
  first := marklessValue_setBit (Firm.of_not_mem (by decide)).markless

theorem assigned_lessEqual_cons (h : .lessEqual ∉ ts) (n : Text) :
  assigned n (.lessEqual :: ts) = 0
  := by
  rw [assigned, assigned_of_not_mem h, if_neg (by simp)]

/-- The assignment of a value as a whole counts once for the name of the port. -/
theorem assigns_whole {whole : Text} (quiet : Quiet noNames whole) (hm : Markless whole) (n : Text)
    (p : Port) (style : Style) (depth : Nat) :
  Assigns n (hit n p)
    (line style depth (p.name.text ++ " <= " ++ whole ++ ";"))
  := by
  have sign : Piece noNames [' ', '<', '=', ' '] := Piece.of_isPlain (by decide)
  obtain ⟨target, read⟩ := piece_name (n := p.name) (by decide) sign (m := .lessEqual) (by decide)
  have phrase : Phrase noNames (p.name.text ++ [' ', '<', '=', ' '] ++ whole) :=
    target.append_quiet (a := [.word p.name.key]) read (by simp) quiet
  have found : tokens (p.name.text ++ [' ', '<', '=', ' '] ++ whole ++ [';']) =
      .word p.name.key :: .lessEqual :: (tokens whole ++ [.semicolon]) := by
    rw [phrase.cut [';'] (by decide), target.cut, read]
    rfl
  have later : .lessEqual ∉ tokens whole ++ [.semicolon] := by
    simpa using hm.lessEqual_not_mem
  apply Assigns.line (phrase.append_stop (by decide)).cut.cutAtStop
  · exact found ▸ (by simp)
  · refine (congrArg (assigned n) found).trans ?_
    rw [assigned, assigned_lessEqual_cons later]
    simp [hit]

/-- The assignment of a single element does not count, because the index stands behind the name. -/
theorem assigns_single {index : Text} (quiet : Quiet noNames index) (hm : Markless index) (n : Text)
    (p : Port) (style : Style) (depth : Nat) :
  Assigns n 0 (line style depth (p.name.text ++ "(" ++ index ++ ") <= '1';"))
  := by
  have opening : Piece noNames ['('] := Piece.stop (by decide)
  have close : Piece noNames (')' :: " <= '1';") := Piece.of_isPlain (by decide)
  have assignment : tokens (')' :: " <= '1';") =
      [.closing, .lessEqual, .word "1", .semicolon] := by decide
  obtain ⟨target, read⟩ := piece_name (n := p.name) (by decide) opening (m := .opening) (by decide)
  have phrase : Phrase noNames (p.name.text ++ ['('] ++ index) :=
    target.append_quiet (a := [.word p.name.key]) read (by simp) quiet
  have found : tokens (p.name.text ++ ['('] ++ index ++ ')' :: " <= '1';") =
      .word p.name.key :: .opening :: tokens index ++
        [.closing, .lessEqual, .word "1", .semicolon] := by
    rw [phrase.cut _ (by decide), target.cut, read, assignment]
    rfl
  have before : .lessEqual ∉ .word p.name.key :: .opening :: tokens index := by
    simpa using hm.lessEqual_not_mem
  apply Assigns.line (phrase.append_cons (by decide) close).cut.cutAtStop
  · exact found ▸ (by simp)
  · refine (congrArg (assigned n) found).trans ?_
    rw [assigned_append (by simp), assigned_of_not_mem before]
    simp [assigned]

/-- A statement that assigns a value to a port assigns the name of the port once. -/
theorem assigns_assign (hv : QuietValue noNames v) (hm : MarklessValue v)
    (n : Text) (h : assign style depth p v = .ok t) :
  Assigns n (hit n p) t
  := by
  rw [assign.eq_def] at h
  obtain ⟨whole, rendered, h⟩ := bind_eq_ok.1 h
  obtain rfl := Except.ok.inj h
  apply (assigns_whole (quiet_render (not_noNames _) hv rendered) (firm_render hv rendered).markless
    n p style depth).append_none
  cases v with
  | setBit index => apply assigns_single hv (hm index rfl) n
  | _ => apply Assigns.nil

theorem assigns_wait (n : Text) (style : Style) (depth : Nat) (d : Delay) :
  Assigns n 0 (wait style depth d)
  := by
  have digits : Firm (Text.ofNat d) := Firm.word fun c hc => isWordChar_of_mem_ofNat hc
  apply Assigns.of_markless (piece_wait style depth d)
  apply Firm.markless
  apply (Firm.append (Firm.spaces _) _).append (.of_not_mem (by decide))
  apply (Firm.append (.of_not_mem (by decide)) _).append (.of_not_mem (by decide))
  apply digits.append (.of_not_mem (by decide))

/-- A character is bland when it is calm and belongs to no arrow and no mark of assignments. -/
def IsBland (c : Char) : Prop := IsCalm c ∧ c ≠ '>' ∧ c ≠ '<'

instance : DecidablePred IsBland := fun _ => inferInstanceAs (Decidable (_ ∧ _))

theorem isBland_of_isWordChar {c : Char} (hc : isWordChar c) :
  IsBland c
  := by
  use isCalm_of_isWordChar hc
  constructor <;>
    · rintro rfl
      contradiction

/-- A line of bland characters assigns nothing. -/
theorem assigns_line_of_isBland (ht : ∀ c ∈ t, IsBland c) (n : Text) (style : Style) (depth : Nat) :
  Assigns n 0 (line style depth t)
  := by
  have phrase : Phrase noNames t :=
    Phrase.of_isCalm fun c hc => ⟨(ht c hc).1, (ht c hc).2.1⟩
  have plain : '<' ∉ t := fun mem => (ht '<' mem).2.2 rfl
  apply Assigns.of_markless (piece_line phrase style depth)
  apply Firm.markless
  apply ((Firm.spaces _).append (.of_not_mem plain)).append (.of_not_mem (by decide))

/-- A comment that names a word, on a line of its own, assigns nothing. -/
theorem assigns_comment (title : Text) {w : Text} (ht : '\n' ∉ title ∧ '<' ∉ title)
    (hw : ∀ c ∈ w, isWordChar c) (n : Text) (style : Style) (depth : Nat) :
  Assigns n 0 (line style depth ("--" ++ (title ++ w)))
  := by
  have absent : ∀ c, c ∉ title → ¬isWordChar c → c ∉ title ++ w := by
    intro c outside other mem
    rcases List.mem_append.1 mem with mem | mem
    · apply outside mem
    · apply other (hw c mem)
  have feed := absent '\n' ht.1 (by decide)
  have mark := absent '<' ht.2 (by decide)
  apply Assigns.of_markless (piece_comment feed style depth)
  apply Firm.markless
  apply (Firm.append (Firm.spaces _) _).append (.of_not_mem (by decide))
  apply Firm.append (s := ['-', '-']) (.of_not_mem (by decide)) (.of_not_mem mark)

/-- A process assigns as often as its statements. -/
theorem assigns_process (hl : ∀ c ∈ label, isWordChar c) (hs : Assigns n k t) (style : Style) :
  Assigns n k (process style label t)
  := by
  have fixed : ∀ t ∈ ["begin".toList, "wait;", "end process;"], ∀ depth,
      Assigns n 0 (line style depth t) := by
    intro t ht depth
    apply assigns_line_of_isBland
    revert t
    decide
  have heading : Assigns n 0 (line style 1 (label ++ " : process")) := by
    apply assigns_line_of_isBland
    intro c hc
    have behind : ∀ c ∈ (" : process" : Text), IsBland c := by decide
    rcases List.mem_append.1 hc with hc | hc
    · apply isBland_of_isWordChar (hl c hc)
    · apply behind c hc
  apply Assigns.append_none _ (fixed _ (by simp) 1)
  apply Assigns.append_none _ (fixed _ (by simp) 2)
  apply (heading.append_none (fixed _ (by simp) 1)).none_append hs

/-! ### Clock and reset -/

theorem assigns_assign_logic {b : Bool} (n : Text)
    (h : assign style depth p (.logic p.type b) = .ok t) :
  Assigns n (hit n p) t
  := assigns_assign (common_quietValue.logic _ _) (common_marklessValue.logic _ _) n h

/-- The process for the clock assigns the clock twice. -/
theorem assigns_clockProcess {settings : Settings} {done : Text} (hd : ∀ c ∈ done, isWordChar c)
    (n : Text) (h : clockProcess e style settings done p = .ok t) :
  Assigns n (2 * hit n p) t
  := by
  rw [clockProcess] at h
  obtain ⟨low, hlow, h⟩ := bind_eq_ok.1 h
  obtain ⟨high, hhigh, h⟩ := bind_eq_ok.1 h
  obtain rfl := Except.ok.inj h
  have loop : ∀ c ∈ ("while not " ++ done ++ " loop" : Text), IsBland c := by
    have fixed : ∀ c ∈ ("while not " ++ " loop" : Text), IsBland c := by decide
    intro c hc
    simp only [List.mem_append] at hc fixed
    rcases hc with (hc | hc) | hc
    · apply fixed c (.inl hc)
    · apply isBland_of_isWordChar (hd c hc)
    · apply fixed c (.inr hc)
  have half := assigns_wait n style 3 settings.clockHalfPeriod
  apply assigns_process (isWordChar_freshName (by decide) e)
  apply Assigns.append_none _ (assigns_line_of_isBland (by decide) n style 2)
  apply Assigns.append_none _ half
  rw [Nat.two_mul]
  apply Assigns.append _ (assigns_assign_logic n hhigh)
  apply Assigns.append_none _ half
  apply (assigns_line_of_isBland loop n style 2).none_append (assigns_assign_logic n hlow)

/-- The process for the reset assigns the reset twice. -/
theorem assigns_resetProcess {settings : Settings} {activeLow : Bool} (n : Text)
    (h : resetProcess e style settings activeLow p = .ok t) :
  Assigns n (2 * hit n p) t
  := by
  rw [resetProcess] at h
  obtain ⟨active, hactive, h⟩ := bind_eq_ok.1 h
  obtain ⟨released, hreleased, h⟩ := bind_eq_ok.1 h
  obtain rfl := Except.ok.inj h
  apply assigns_process (isWordChar_freshName (by decide) e)
  rw [Nat.two_mul]
  apply Assigns.append _ (assigns_assign_logic n hreleased)
  apply (assigns_assign_logic n hactive).append_none (assigns_wait n style 2 _)

theorem assigns_awaitReset {activeLow : Bool} (n : Text)
    (h : awaitReset style activeLow p = .ok t) :
  Assigns n 0 t
  := by
  apply Assigns.of_markless (piece_awaitReset (by simp) (by simp) h)
  rw [awaitReset] at h
  obtain ⟨released, hreleased, h⟩ := bind_eq_ok.1 h
  obtain rfl := Except.ok.inj h
  have value : Firm released := firm_render (common_quietValue.logic _ _) hreleased
  have name : Firm p.name.text := Firm.word p.name.isWord.forall_mem
  apply Firm.markless
  apply (Firm.append (Firm.spaces _) _).append (.of_not_mem (by decide))
  apply Firm.append _ (.of_not_mem (by decide))
  apply Firm.append _ value
  apply Firm.append _ (.of_not_mem (by decide))
  apply Firm.append (.of_not_mem (by decide)) name

/-! ### Stimulus -/

/-- The rows of a table assign each port once in each row. -/
theorem assigns_combinationRows {ports : List Port} {delay : Delay} {i : Nat}
    {rows : List (List Value)} (hl : ∀ row ∈ rows, row.length = ports.length)
    (hv : ∀ row ∈ rows, ∀ v ∈ row, QuietValue noNames v ∧ MarklessValue v) (n : Text)
    (h : combinationRows ports style delay i rows = .ok t) :
  Assigns n (rows.length * (ports.map (hit n)).sum) t
  := by
  induction rows generalizing i t with
  | nil =>
    obtain rfl := Except.ok.inj h
    rw [List.length_nil, Nat.zero_mul]
    apply Assigns.nil
  | cons row rows ih =>
    rw [combinationRows] at h
    obtain ⟨assigned, hassigned, h⟩ := bind_eq_ok.1 h
    obtain ⟨rest, hrest, h⟩ := bind_eq_ok.1 h
    obtain rfl := Except.ok.inj h
    have rest := ih (fun row hrow => hl row (List.mem_cons_of_mem _ hrow))
      (fun row hrow => hv row (List.mem_cons_of_mem _ hrow)) hrest
    have statements : Assigns n (ports.map (hit n)).sum assigned.flatten := by
      have made := Assigns.of_mapM (fun s => hit n s.1) hassigned fun s hs t made =>
        have quiet := hv row List.mem_cons_self s.2 (List.of_mem_zip hs).2
        assigns_assign quiet.1 quiet.2 n made
      have first : (ports.zip row).map Prod.fst = ports :=
        List.map_fst_zip (hl row List.mem_cons_self).ge
      have zipped : (ports.zip row).map (fun s => hit n s.1) = ports.map (hit n) := by
        rw [← congrArg (List.map (hit n)) first, List.map_map]
        rfl
      rwa [zipped] at made
    have heading : Assigns n 0 (line style 2 ("-- combination " ++ Text.ofNat i)) :=
      assigns_comment " combination " (by decide)
        (fun c hc => isWordChar_of_mem_ofNat hc) n style 2
    rw [List.length_cons, Nat.succ_mul, Nat.add_comm]
    apply Assigns.append _ rest
    apply (heading.none_append statements).append_none (assigns_wait n style 2 delay)

/-- A sequence assigns its port once in each step. -/
theorem assigns_sequenceStatements {steps : List Step}
    (hv : ∀ s ∈ steps, QuietValue noNames s.value ∧ MarklessValue s.value) (n : Text)
    (h : sequenceStatements style p steps = .ok t) :
  Assigns n (steps.length * hit n p) t
  := by
  rw [sequenceStatements] at h
  obtain ⟨assigned, hassigned, h⟩ := bind_eq_ok.1 h
  obtain rfl := Except.ok.inj h
  have heading : Assigns n 0 (line style 2 ("-- sequence for " ++ p.name.text)) :=
    assigns_comment " sequence for " (by decide) p.name.isWord.forall_mem n style 2
  have step : ∀ s ∈ steps, ∀ t,
      (do return (← assign style 2 p s.value) ++ wait style 2 s.delay) = Except.ok t →
        Assigns n (hit n p) t := by
    intro s hs t made
    obtain ⟨statement, hstatement, made⟩ := bind_eq_ok.1 made
    obtain rfl := Except.ok.inj made
    apply (assigns_assign (hv s hs).1 (hv s hs).2 n hstatement).append_none
    apply assigns_wait
  have statements := Assigns.of_mapM (fun _ => hit n p) hassigned step
  rw [List.map_const', List.sum_replicate_nat] at statements
  apply heading.none_append statements

/-- A plan whose values are quiet and name bounds without the mark. -/
structure MarklessPlan (e : Entity) (plan : Plan) : Prop where
  rows : ∀ c ∈ plan.combinations, ∀ row ∈ c.rows,
    row.length = (c.ports.filterMap (e.ports[·]?)).length ∧
      ∀ v ∈ row, QuietValue noNames v ∧ MarklessValue v
  steps : ∀ sequence ∈ plan.sequences, ∀ s ∈ sequence.2,
    QuietValue noNames s.value ∧ MarklessValue s.value

/-- How often the table of a plan assigns a name. -/
def tableHits (n : Text) (e : Entity) (plan : Plan) : Nat :=
  match plan.combinations with
  | some c => c.rows.length * ((c.ports.filterMap (e.ports[·]?)).map (hit n)).sum
  | none => 0

/-- How often the sequences of a plan assign a name. -/
def sequenceHits (n : Text) (e : Entity) (plan : Plan) : Nat :=
  ((drivers e plan).map fun (p, steps) => steps.length * hit n p).sum

/-- The assignment of the flag does not count for a name that is not the flag. -/
theorem assigns_flag {done : Text} (hd : IsWord done) (differ : done.lower ≠ n) (style : Style)
    (depth : Nat) :
  Assigns n 0 (line style depth (done ++ " <= true;"))
  := by
  have word : Phrase noNames done := Phrase.word hd.forall_mem
  have sign : Piece noNames (' ' :: "<= true;") := Piece.of_isPlain (by decide)
  have assignment : tokens (' ' :: "<= true;") = [.lessEqual, .word "true", .semicolon] := by
    decide
  have found : tokens (done ++ " <= true;") =
      [.word done.lower, .lessEqual, .word "true", .semicolon] := by
    refine (word.cut (' ' :: "<= true;") (by decide)).trans ?_
    rw [tokens_word hd.forall_mem, IsWord.wordToken_lower hd, assignment]
    rfl
  apply Assigns.line (word.append_cons (by decide) sign).cut.cutAtStop
  · exact found ▸ (by simp)
  · exact found ▸ (by simp [assigned, differ])

/-- The process that applies a plan assigns a name, which is not the flag, as often as the table and
the sequences do. -/
theorem assigns_stimulusProcess {roles : Roles} {plan : Plan} (hp : MarklessPlan e plan)
    {done : Text} (hd : IsWord done) (differ : done.lower ≠ n)
    (h : stimulusProcess e style roles plan done = .ok t) :
  Assigns n (tableHits n e plan + sequenceHits n e plan) t
  := by
  rw [stimulusProcess_eq] at h
  obtain ⟨start, hstart, h⟩ := bind_eq_ok.1 h
  obtain ⟨table, htable, h⟩ := bind_eq_ok.1 h
  obtain ⟨sequences, hsequences, h⟩ := bind_eq_ok.1 h
  obtain rfl := Except.ok.inj h
  have start : Assigns n 0 start := by
    rcases of_startStatements_eq_ok hstart with rfl | ⟨reset, -, written⟩
    · apply Assigns.nil
    · apply assigns_awaitReset n written
  have table : Assigns n (tableHits n e plan) table := by
    rcases of_tableStatements_eq_ok htable with ⟨hc, rfl⟩ | ⟨c, hc, written⟩
    · rw [tableHits, hc]
      apply Assigns.nil
    · rw [tableHits, hc]
      apply assigns_combinationRows _ _ n written
      · intro row hrow
        apply (hp.rows c hc row hrow).1
      · intro row hrow
        apply (hp.rows c hc row hrow).2
  have sequences : Assigns n (sequenceHits n e plan) sequences.flatten := by
    apply Assigns.of_mapM _ hsequences
    rintro ⟨p, steps⟩ mem t made
    apply assigns_sequenceStatements _ n made
    obtain ⟨i, -, listed⟩ := exists_of_mem_drivers mem
    apply hp.steps (i, steps) listed
  apply assigns_process (isWordChar_freshName (by decide) e)
  apply Assigns.append_none _ (assigns_flag hd differ style 2)
  apply (start.none_append table).append sequences

end Testbench.Check
