import Testbench.Proofs.Bench.Assembly
import Testbench.Proofs.Check.Layout
import Testbench.Proofs.Stage
import Testbench.Proofs.Stimulus.Plan
import Testbench.Proofs.Vhdl.Range

/-!
# What is written of a plan

The values that a plan gives to ports are quiet, and so the statements that assign them, and
the processes that are made of such statements, are pieces.
-/

namespace Testbench.Check

open Vhdl Stimulus Layout Bench

variable {names : Text → Prop} {style : Style} {depth : Nat} {s t : Text} {v : Value} {p : Port}
  {e : Entity}

/-! ### Quiet texts -/

theorem isWordChar_of_mem_ofNat {n : Nat} {c : Char} (hc : c ∈ Text.ofNat n) :
  isWordChar c
  := by
  simp [isWordChar, isDigit, Text.isDigit_of_mem_ofNat hc]

/-- An aggregate that gives all elements one value associates only the word for the others. -/
theorem quiet_others (others : ¬names "others") {c : Char} (hc : c ∈ ['0', '1', 'Z']) :
  Quiet names ("(others => '" ++ [c] ++ "')")
  := by
  have calm : ∀ c ∈ ['0', '1', 'Z'], ∀ d ∈ ("(others => '" ++ [c] ++ "')" : Text), IsCalm d := by
    decide
  have read : ∀ c ∈ ['0', '1', 'Z'], tokens ("(others => '" ++ [c] ++ "')") =
      [.opening, .word "others", .arrow, .word [c.toLower], .closing] := by decide
  use (sealed_of_isCalm (calm c hc)).cutAtStop
  intro n hn
  have differ : "others".toList ≠ n := by
    rintro rfl
    apply others hn
  rw [read c hc]
  generalize "others".toList = others at differ
  simp [associates, differ]

/-- An integer is quiet. -/
theorem quiet_ofInt (n : Int) :
  Quiet names (Text.ofInt n)
  := by
  cases n with
  | ofNat n => apply quiet_word fun c hc => isWordChar_of_mem_ofNat hc
  | negSucc n =>
    have calm : ∀ c ∈ Text.ofNat (n + 1), IsCalm c :=
      fun c hc => isCalm_of_isWordChar (isWordChar_of_mem_ofNat hc)
    have digits := sealed_of_isCalm calm
    apply quiet_of_not_mem
    · constructor
      · rw [Text.ofInt, List.isChain_cons]
        use fun d hd => by simp [Uncommented, (calm d (List.mem_of_head? hd)).2.1]
        apply digits.chain
      · rw [Text.ofInt, List.count_cons]
        apply digits.even
    · rw [Text.ofInt, List.mem_cons, not_or]
      use by decide
      intro arrow
      apply absurd (isWordChar_of_mem_ofNat arrow) (by decide)

/-- Word characters in quotes are quiet. -/
theorem quiet_string (ht : ∀ c ∈ t, isWordChar c) :
  Quiet names ('"' :: (t ++ ['"']))
  := by
  have calm : ∀ c ∈ t, IsCalm c := fun c hc => isCalm_of_isWordChar (ht c hc)
  apply quiet_of_not_mem
  · constructor
    · apply isChain_of_forall
      intro c hc
      simp only [List.mem_cons, List.mem_append, List.not_mem_nil, or_false] at hc
      rcases hc with rfl | hc | rfl
      · decide
      · apply (calm c hc).2
      · decide
    · have absent : '"' ∉ t := fun quote => (calm '"' quote).1 rfl
      rw [List.count_cons, List.count_append, List.count_eq_zero.2 absent]
      decide
  · intro arrow
    simp only [List.mem_cons, List.mem_append, List.not_mem_nil, or_false] at arrow
    rcases arrow with arrow | arrow | arrow
    · contradiction
    · apply absurd (ht '>' arrow) (by decide)
    · contradiction

/-! ### Values -/

/-- A value is quiet when the bits that it lists are word characters and the bound that it names is
quiet. -/
def QuietValue (names : Text → Prop) : Value → Prop
  | .literal bits => ∀ c ∈ bits, isWordChar c
  | .setBit index => Quiet names index.text
  | _ => True

/-- The values that plans give to ports of whatever range are quiet. -/
theorem common_quietValue :
  Value.Common (QuietValue names)
  where
  bit _ := trivial
  truth _ := trivial
  int _ := trivial
  literal width n := by
    intro c hc
    rcases mem_binary hc with rfl | rfl <;> decide
  fill _ := trivial
  first := quiet_word fun _ hc => isWordChar_of_mem_ofNat hc

/-- A quiet value is written as a quiet text. -/
theorem quiet_literal (others : ¬names "others") (hv : QuietValue names v) :
  Quiet names (literal v)
  := by
  cases v with
  | bit b => apply quiet_of_not_mem (sealed_of_isCalm _) <;> cases b <;> decide
  | truth b => apply quiet_of_not_mem (sealed_of_isCalm _) <;> cases b <;> decide
  | int n => apply quiet_ofInt
  | literal bits => apply quiet_string hv
  | fill b =>
    apply quiet_others others
    cases b <;> decide
  | setBit index => exact quiet_others others (c := '0') (by decide)

/-- What is written for a port is quiet if the value is. -/
theorem quiet_render (others : ¬names "others") (hv : QuietValue names v)
    (h : render v p = .ok t) :
  Quiet names t
  := by
  rw [render] at h
  split at h
  · obtain rfl := Except.ok.inj h
    apply quiet_literal others hv
  · simp at h

/-! ### Statements -/

/-- A phrase on a line of its own is a piece. -/
theorem piece_line (ht : Phrase names t) (style : Style) (depth : Nat) :
  Piece names (line style depth t)
  := ((piece_indent style depth).append_phrase ht).append_stop (by decide)

/-- The name of a port with a mark behind it that begins with a stop. -/
theorem piece_name {n : Identifier} {c : Char} {m : Token} (hc : c ∈ stops)
    (hs : Piece names (c :: s)) (read : tokens (c :: s) = [m]) :
  Piece names (n.text ++ c :: s) ∧ tokens (n.text ++ c :: s) = [.word n.key, m]
  := by
  have word : Phrase names n.text := Phrase.word n.isWord.forall_mem
  use word.append_cons hc hs
  rw [word.cut _ (by simpa using hc), tokens_text, read]
  rfl

/-- The assignment of a quiet value to a port is a piece. -/
theorem piece_assign (others : ¬names "others") (hv : QuietValue names v)
    (h : assign style depth p v = .ok t) :
  Piece names t
  := by
  have sign : Piece names [' ', '<', '=', ' '] := Piece.of_isPlain (by decide)
  unfold assign at h
  obtain ⟨whole, rendered, h⟩ := bind_eq_ok.1 h
  obtain rfl := Except.ok.inj h
  obtain ⟨target, read⟩ := piece_name (n := p.name) (by decide) sign (m := .lessEqual) (by decide)
  apply Piece.append
  · apply piece_line
    apply Piece.phrase
    apply Phrase.append_stop _ (by decide)
    apply target.append_quiet (a := [.word p.name.key]) read (by simp)
    apply quiet_render others hv rendered
  · split
    · next index =>
      have opening : Piece names ['('] := Piece.stop (by decide)
      have rest : Piece names (')' :: " <= '1';") := Piece.of_isPlain (by decide)
      obtain ⟨target, read⟩ :=
        piece_name (n := p.name) (by decide) opening (m := .opening) (by decide)
      apply piece_line
      apply Piece.phrase
      apply Phrase.append_cons _ (by decide) rest
      apply target.append_quiet (a := [.word p.name.key]) read (by simp) hv
    · apply Piece.nil

/-- A statement that lets time pass is a piece. -/
theorem piece_wait (style : Style) (depth : Nat) (d : Delay) :
  Piece names (wait style depth d)
  := by
  have digits : Phrase names (Text.ofNat d) := Phrase.word fun c hc => isWordChar_of_mem_ofNat hc
  have unit : Piece names (' ' :: "ns;") := Piece.of_isPlain (by decide)
  have front : Piece names "wait for " := Piece.of_isPlain (by decide)
  have shape : "wait for " ++ d.text ++ ";" = "wait for " ++ (Text.ofNat d ++ ' ' :: "ns;") := by
    simp [Delay.text]
  apply piece_line
  rw [shape]
  apply (front.append (digits.append_cons (by decide) unit)).phrase

/-- A process whose statements are a piece is a piece. -/
theorem piece_process {label statements : Text} (hl : ∀ c ∈ label, isWordChar c)
    (hs : Piece names statements) (style : Style) :
  Piece names (process style label statements)
  := by
  have fixed : ∀ t ∈ ["begin".toList, "wait;", "end process;"], ∀ depth,
      Piece names (line style depth t) := by
    intro t ht depth
    apply piece_line
    apply Phrase.of_isCalm
    revert t
    decide
  have heading : Piece names (line style 1 (label ++ " : process")) := by
    apply piece_line
    apply (Phrase.word hl).append _ (by decide)
    apply Phrase.of_isCalm (by decide)
  apply Piece.append _ (fixed _ (by simp) 1)
  apply Piece.append _ (fixed _ (by simp) 2)
  apply Piece.append _ hs
  apply heading.append (fixed _ (by simp) 1)

/-- A fresh name that is made of word characters has no others. -/
theorem isWordChar_freshName {base : Text} (hb : ∀ c ∈ base, isWordChar c) (e : Entity) :
  ∀ c ∈ freshName e base, isWordChar c
  := by
  have candidates : ∀ i, ∀ c ∈ candidate base i, isWordChar c := by
    intro i c hc
    cases i with
    | zero => apply hb c hc
    | succ i =>
      simp only [candidate, List.mem_append] at hc
      rcases hc with (hc | hc) | hc
      · apply hb c hc
      · obtain rfl : c = '_' := by simpa using hc
        decide
      · apply isWordChar_of_mem_ofNat hc
  rw [freshName]
  cases found : ((List.range (nameCount e + 1)).map (candidate base)).find? (!e.isTaken ·) with
  | none => apply hb
  | some n =>
    obtain ⟨i, -, rfl⟩ := List.mem_map.1 (List.mem_of_find?_eq_some found)
    apply candidates i

/-! ### Clock and reset -/

theorem piece_clockProcess (others : ¬names "others") {settings : Settings} {done : Text}
    (hd : ∀ c ∈ done, isWordChar c) (h : clockProcess e style settings done p = .ok t) :
  Piece names t
  := by
  rw [clockProcess] at h
  obtain ⟨low, hlow, h⟩ := bind_eq_ok.1 h
  obtain ⟨high, hhigh, h⟩ := bind_eq_ok.1 h
  obtain rfl := Except.ok.inj h
  have front : Piece names "while not " := Piece.of_isPlain (by decide)
  have loop : Phrase names ("while not " ++ done ++ " loop") := by
    apply (front.append_phrase (Phrase.word hd)).append _ (by decide)
    apply Phrase.of_isCalm (by decide)
  have low := piece_assign others (common_quietValue.logic _ _) hlow
  have high := piece_assign others (common_quietValue.logic _ _) hhigh
  have half : Piece names _ := piece_wait style 3 settings.clockHalfPeriod
  apply piece_process (isWordChar_freshName (by decide) e)
  apply Piece.append _ (piece_line (Phrase.of_isCalm (by decide)) style 2)
  apply Piece.append _ half
  apply Piece.append _ high
  apply Piece.append _ half
  apply (piece_line loop style 2).append low

theorem piece_resetProcess (others : ¬names "others") {settings : Settings} {activeLow : Bool}
    (h : resetProcess e style settings activeLow p = .ok t) :
  Piece names t
  := by
  rw [resetProcess] at h
  obtain ⟨active, hactive, h⟩ := bind_eq_ok.1 h
  obtain ⟨released, hreleased, h⟩ := bind_eq_ok.1 h
  obtain rfl := Except.ok.inj h
  have active := piece_assign others (common_quietValue.logic _ _) hactive
  have released := piece_assign others (common_quietValue.logic _ _) hreleased
  apply piece_process (isWordChar_freshName (by decide) e)
  apply (active.append (piece_wait style 2 _)).append released

theorem piece_awaitReset (others : ¬names "others") (name : ¬names p.name.key) {activeLow : Bool}
    (h : awaitReset style activeLow p = .ok t) :
  Piece names t
  := by
  rw [awaitReset] at h
  obtain ⟨released, hreleased, h⟩ := bind_eq_ok.1 h
  obtain rfl := Except.ok.inj h
  have front : Piece names "wait until " := Piece.of_isPlain (by decide)
  have equals : Piece names [' ', '=', ' '] := Piece.of_isPlain (by decide)
  have word : Phrase names p.name.text := Phrase.word p.name.isWord.forall_mem
  have target : Piece names ("wait until " ++ p.name.text ++ [' ', '=', ' ']) :=
    (front.append_phrase word).append_cons (by decide) equals
  have read : tokens ("wait until " ++ p.name.text ++ [' ', '=', ' ']) =
      tokens "wait until " ++ [.word p.name.key] := by
    rw [(front.append_phrase word).cut _ (by decide), front.cut, tokens_text]
    apply List.append_nil
  apply piece_line
  apply Piece.phrase
  apply Phrase.append_stop _ (by decide)
  apply target.append_quiet read _ (quiet_render others (common_quietValue.logic _ _) hreleased)
  intro n hn eq
  obtain rfl : p.name.key = n := Token.word.inj eq
  apply name hn

/-! ### Stimulus -/

/-- A comment on a line of its own is a piece. -/
theorem piece_comment (ht : '\n' ∉ t) (style : Style) (depth : Nat) :
  Piece names (line style depth ('-' :: '-' :: t))
  := by
  rw [line, List.append_assoc]
  apply (piece_indent style depth).append (Piece.comment ht)

theorem piece_combinationRows (others : ¬names "others") {ports : List Port} {delay : Delay}
    {n : Nat} {rows : List (List Value)} (hr : ∀ row ∈ rows, ∀ v ∈ row, QuietValue names v)
    (h : combinationRows ports style delay n rows = .ok t) :
  Piece names t
  := by
  induction rows generalizing n t with
  | nil =>
    obtain rfl := Except.ok.inj h
    apply Piece.nil
  | cons row rows ih =>
    rw [combinationRows] at h
    obtain ⟨assigned, hassigned, h⟩ := bind_eq_ok.1 h
    obtain ⟨rest, hrest, h⟩ := bind_eq_ok.1 h
    obtain rfl := Except.ok.inj h
    have rest := ih (fun row hrow => hr row (List.mem_cons_of_mem _ hrow)) hrest
    have statements : Piece names assigned.flatten := by
      apply Piece.flatten
      intro t ht
      obtain ⟨⟨p, v⟩, mem, made⟩ := exists_of_mem_of_mapM_eq_ok hassigned ht
      apply piece_assign others _ made
      apply hr row List.mem_cons_self v (List.of_mem_zip mem).2
    have heading : Piece names (line style 2 ("-- combination " ++ Text.ofNat n)) := by
      apply piece_comment (t := " combination " ++ Text.ofNat n)
      intro feed
      rcases List.mem_append.1 feed with feed | feed
      · revert feed
        decide
      · apply absurd (isWordChar_of_mem_ofNat feed) (by decide)
    apply Piece.append _ rest
    apply (heading.append statements).append (piece_wait style 2 delay)

theorem piece_sequenceStatements (others : ¬names "others") {steps : List Step}
    (hs : ∀ s ∈ steps, QuietValue names s.value)
    (h : sequenceStatements style p steps = .ok t) :
  Piece names t
  := by
  rw [sequenceStatements] at h
  obtain ⟨assigned, hassigned, h⟩ := bind_eq_ok.1 h
  obtain rfl := Except.ok.inj h
  have heading : Piece names (line style 2 ("-- sequence for " ++ p.name.text)) := by
    apply piece_comment (t := " sequence for " ++ p.name.text)
    intro feed
    rcases List.mem_append.1 feed with feed | feed
    · revert feed
      decide
    · apply absurd (p.name.isWord.forall_mem '\n' feed) (by decide)
  apply heading.append
  apply Piece.flatten
  intro t ht
  obtain ⟨step, mem, made⟩ := exists_of_mem_of_mapM_eq_ok hassigned ht
  obtain ⟨statement, hstatement, made⟩ := bind_eq_ok.1 made
  obtain rfl := Except.ok.inj made
  apply (piece_assign others (hs step mem) hstatement).append (piece_wait style 2 _)

/-- A plan is quiet when all of its values are. -/
structure QuietPlan (names : Text → Prop) (plan : Plan) : Prop where
  rows : ∀ c ∈ plan.combinations, ∀ row ∈ c.rows, ∀ v ∈ row, QuietValue names v
  steps : ∀ sequence ∈ plan.sequences, ∀ s ∈ sequence.2, QuietValue names s.value

/-- The process that applies a quiet plan is a piece. -/
theorem piece_stimulusProcess (others : ¬names "others") (name : ∀ p ∈ e.ports, ¬names p.name.key)
    {roles : Roles} {plan : Plan} (hp : QuietPlan names plan) {done : Text}
    (hd : ∀ c ∈ done, isWordChar c) (h : stimulusProcess e style roles plan done = .ok t) :
  Piece names t
  := by
  rw [stimulusProcess_eq] at h
  obtain ⟨start, hstart, h⟩ := bind_eq_ok.1 h
  obtain ⟨table, htable, h⟩ := bind_eq_ok.1 h
  obtain ⟨sequences, hsequences, h⟩ := bind_eq_ok.1 h
  obtain rfl := Except.ok.inj h
  have start : Piece names start := by
    rcases of_startStatements_eq_ok hstart with rfl | ⟨reset, hreset, written⟩
    · apply Piece.nil
    · apply piece_awaitReset others (name reset hreset) written
  have table : Piece names table := by
    rcases of_tableStatements_eq_ok htable with ⟨-, rfl⟩ | ⟨c, hc, written⟩
    · apply Piece.nil
    · apply piece_combinationRows others (hp.rows c hc) written
  have sequences : Piece names sequences.flatten := by
    apply Piece.flatten
    intro t ht
    obtain ⟨⟨p, steps⟩, mem, made⟩ := exists_of_mem_of_mapM_eq_ok hsequences ht
    obtain ⟨i, -, listed⟩ := exists_of_mem_drivers mem
    apply piece_sequenceStatements others (hp.steps (i, steps) listed) made
  have finish : Phrase names (done ++ " <= true;") := by
    apply (Phrase.word hd).append _ (by decide)
    apply Phrase.of_isCalm (by decide)
  apply piece_process (isWordChar_freshName (by decide) e)
  apply Piece.append _ (piece_line finish style 2)
  apply (start.append table).append sequences

/-! ### Plans -/

/-- The plan of an entity is quiet if the right bounds of its ranges are. -/
theorem quietPlan_ofEntity (hr : ∀ p ∈ e.ports, ∀ r ∈ p.range, Quiet names r.right.text)
    (roles : Roles) (limits : Limits) (delay : Delay) :
  QuietPlan names (Plan.ofEntity e roles limits delay)
  := by
  have all := common_quietValue.all_ofEntity hr roles limits delay
  exact ⟨all.rows, all.steps⟩

end Testbench.Check
