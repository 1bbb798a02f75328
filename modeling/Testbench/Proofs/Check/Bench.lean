import Testbench.Proofs.Bench.Constant
import Testbench.Proofs.Check.Statement

/-!
# What a generated bench associates

The bench of a quiet entity is a piece: it associates none of the names, while it declares the
entity as a component, instantiates it and associates each of its ports.
-/

namespace Testbench.Check

open Vhdl Stimulus Layout Bench

variable {names : Text → Prop} {style : Style} {t : Text} {p : Port} {g : Generic} {e : Entity}
  {config : Config}

/-! ### Constants and signals -/

/-- The values that are named for types are quiet. -/
theorem quiet_placeholder? (others : ¬names "others") {type value : Text}
    (h : placeholder? type = some value) :
  Quiet names value
  := by
  have scalar : ∀ entry ∈ scalarPlaceholders, entry.2.IsChain Uncommented ∧
      Even (entry.2.count '"') ∧ '>' ∉ entry.2 := by decide
  rcases source_of_placeholder? h with ⟨entry, mem, rfl⟩ | rfl
  · obtain ⟨chain, even, arrow⟩ := scalar entry mem
    apply quiet_of_not_mem ⟨chain, even⟩ arrow
  · exact quiet_others others (c := '0') (by decide)

theorem quiet_constantValue (others : ¬names "others")
    (hv : ∀ entry ∈ config.generics.entries, Quiet names entry.2)
    (hd : ∀ d ∈ g.default, Quiet names d) (h : constantValue config g = .ok t) :
  Quiet names t
  := by
  rcases source_of_constantValue h with ⟨entry, listed, rfl⟩ | default | placed
  · apply hv entry listed
  · apply hd t default
  · apply quiet_placeholder? others placed

/-- The high impedance values are quiet. -/
theorem quiet_highImpedance? (others : ¬names "others") {type : DataType} {value : Text}
    (h : highImpedance? type = some value) :
  Quiet names value
  := by
  rcases source_of_highImpedance? h with rfl | rfl
  · apply quiet_of_not_mem (sealed_of_isCalm (by decide)) (by decide)
  · exact quiet_others others (c := 'Z') (by decide)

theorem quiet_initialValue (others : ¬names "others") (hd : ∀ d ∈ p.default, Quiet names d)
    {value : Option Text} (h : initialValue p = .ok value) :
  ∀ v ∈ value, Quiet names v
  := by
  intro v hv
  rcases source_of_initialValue h hv with default | impedance | rendered
  · apply hd v default
  · apply quiet_highImpedance? others impedance
  · apply quiet_render others (common_quietValue.initial _) rendered

/-- The declarations of the constants are a piece that ends with a semicolon if with anything. -/
theorem piece_constants (others : ¬names "others") (he : QuietEntity names e)
    (hv : ∀ entry ∈ config.generics.entries, Quiet names entry.2)
    (h : constants e config style = .ok t) :
  Piece names t ∧ ∀ m ∈ (tokens t).getLast?, m = .semicolon
  := by
  obtain ⟨items, hitems, rfl⟩ := exists_items_of_constants h
  have quiet : ∀ i ∈ items, QuietItem names i := by
    intro i hi
    obtain ⟨g, hg, v, hvalue, rfl⟩ := hitems i hi
    apply he.genericItem hg
    intro w hw
    obtain rfl := Option.some.inj hw
    apply quiet_constantValue others hv (he.genericDefault g hg) hvalue
  obtain ⟨piece, last⟩ := piece_declarationPart quiet
    (Phrase.of_isCalm (t := "constant") (by decide)) style 1
  have feed : Piece names ['\n'] := Piece.stop (by decide)
  rw [unlessEmpty]
  split
  · exact ⟨Piece.nil, by simp⟩
  · use piece.append feed
    rw [show ("\n".toList : Text) = ['\n'] from rfl, piece.cut]
    rwa [show tokens ['\n'] = [] from rfl, List.append_nil]

theorem piece_signals (others : ¬names "others") (he : QuietEntity names e)
    (h : signals e style = .ok t) :
  Piece names t
  := by
  obtain ⟨items, hitems, rfl⟩ := exists_items_of_signals h
  apply (piece_declarationPart _ (Phrase.of_isCalm (by decide)) style 1).1
  intro i hi
  obtain ⟨p, hp, value, hvalue, rfl⟩ := hitems i hi
  apply he.portItem hp
  apply quiet_initialValue others (he.portDefault p hp) hvalue

/-! ### The bench -/

/-- The lines before the architecture are a piece. -/
theorem piece_preamble {top : Text} (ht : ∀ c ∈ top, isWordChar c) :
  Piece names (preamble e top)
  := by
  have title : '\n' ∉ (" Testbench for entity '" ++ e.name.text ++ "'." : Text) := by
    have name : '\n' ∉ e.name.text :=
      fun feed => absurd (e.name.isWord.forall_mem '\n' feed) (by decide)
    simp [name]
  have first : Piece names ("-- Testbench for entity '" ++ e.name.text ++ "'.\n") := by
    have comment : Piece names _ := Piece.comment title
    simpa using comment
  have second : Piece names ("-- Generated by " ++ generator ++ ".\n\n") :=
    (Piece.comment (t := " Generated by " ++ generator ++ ".") (by decide)).append
      (Piece.stop (by decide))
  have library : Piece names
      "library ieee;\nuse ieee.std_logic_1164.all;\nuse ieee.numeric_std.all;\n\n" :=
    Piece.of_isPlain (by decide +kernel)
  have entity : Piece names "entity " := Piece.of_isPlain (by decide)
  have close : Piece names (' ' :: "is\nend entity ") := Piece.of_isPlain (by decide)
  have finish : Piece names (';' :: "\n\n") := Piece.of_isPlain (by decide)
  have word : Phrase names top := Phrase.word ht
  have shape : preamble e top =
      ("-- Testbench for entity '" ++ e.name.text ++ "'.\n") ++
        ("-- Generated by " ++ generator ++ ".\n\n") ++
        "library ieee;\nuse ieee.std_logic_1164.all;\nuse ieee.numeric_std.all;\n\n" ++
        "entity " ++ top ++ ' ' :: "is\nend entity " ++ top ++ ';' :: "\n\n" := by
    unfold preamble
    simp only [List.append_assoc]
    rfl
  rw [shape]
  apply Phrase.append_cons _ (by decide) finish
  apply Piece.append_phrase _ word
  apply Phrase.append_cons _ (by decide) close
  apply Piece.append_phrase _ word
  apply Piece.append _ entity
  apply (first.append second).append library

/-- The tokens of a bench drive an entity when they declare it as a component, instantiate it,
associate each of its ports and repeat their subtypes. -/
structure Drives (e : Entity) (ts : List Token) : Prop where
  declares : declares e.name.key none ts
  instances : instances e.name.key ts ≠ []
  associates : ∀ p ∈ e.ports, associates p.name.key ts
  subtypes : ∀ p ∈ e.ports, tokens p.subtype <:+: ts

/-- A component is declared where its name stands behind the word for components, unless a colon
or the word `end` stands before. -/
theorem declares_append {name : Text} {a b : List Token} {prev : Option Token}
    (last : ∀ m ∈ (prev.toList ++ a).getLast?, m ≠ .colon ∧ m ≠ .word "end") :
  declares name prev (a ++ [.word "component", .word name] ++ b)
  := by
  induction a generalizing prev with
  | nil =>
    simp only [List.nil_append, List.cons_append, declares]
    generalize "component".toList = component
    cases prev with
    | none => simp
    | some m =>
      obtain ⟨colon, closing⟩ := last m rfl
      generalize "end".toList = word at closing ⊢
      simp [colon, closing]
  | cons t a ih =>
    have rest := @ih (some t) (by simpa using last)
    rw [List.cons_append, List.cons_append, declares, rest, Bool.or_true]

/-- An entity is instantiated where its name stands behind a colon. -/
theorem instances_ne_nil {name : Text} {ts : List Token} (h : [.colon, .word name] <:+: ts) :
  instances name ts ≠ []
  := by
  obtain ⟨before, behind, rfl⟩ := h
  induction before with
  | nil =>
    have found : ∃ i, instance? name (.word name :: behind) = some i := by
      rw [instance?]
      split
      · use .component
      · use .component
        apply if_pos rfl
    obtain ⟨i, found⟩ := found
    simp [instances, found]
  | cons t before ih =>
    rw [List.cons_append, List.cons_append, instances]
    intro none
    apply ih (List.append_eq_nil_iff.1 none).2

/-- What is written for the port with an index is a piece if it is one for every port. -/
theorem piece_paragraph {index : Option Nat} {write : Port → Except Bench.Error Text}
    (hw : ∀ p s, write p = .ok s → Piece names s) (h : paragraph e index write = .ok t) :
  Piece names t
  := by
  rcases of_paragraph_eq_ok h with ⟨-, rfl⟩ | ⟨p, s, -, written, rfl⟩
  · apply Piece.nil
  · apply Piece.append (s := ['\n']) (Piece.stop (by decide)) (hw p s written)

/-- The names in a configuration consist of word characters. -/
structure PlainNames (config : Config) : Prop where
  instanceName : ∀ c ∈ config.bench.instanceName, isWordChar c
  architectureName : ∀ c ∈ config.bench.architectureName, isWordChar c
  suffix : ∀ c ∈ config.bench.suffix, isWordChar c

theorem PlainNames.topName (hc : PlainNames config) (e : Entity) :
  ∀ c ∈ topName e config, isWordChar c
  := by
  intro c mem
  rcases List.mem_append.1 mem with mem | mem
  · apply e.name.isWord.forall_mem c mem
  · apply hc.suffix c mem

/-- The lines before the component declaration are a piece, which ends with no colon and not with
the word `end`. -/
theorem piece_front (others : ¬names "others") (he : QuietEntity names e)
    (hv : ∀ entry ∈ config.generics.entries, Quiet names entry.2) {top name : Text}
    (ht : ∀ c ∈ top, isWordChar c) (hn : ∀ c ∈ name, isWordChar c)
    (h : constants e config style = .ok t) :
  Piece names (preamble e top ++ "architecture " ++ name ++ " of " ++ top ++ " is\n" ++ t) ∧
    ∀ m ∈ (tokens (preamble e top ++ "architecture " ++ name ++ " of " ++ top ++ " is\n" ++
        t)).getLast?, m ≠ .colon ∧ m ≠ .word "end"
  := by
  have word : Piece names "architecture " := Piece.of_isPlain (by decide)
  have of : Piece names (' ' :: "of ") := Piece.of_isPlain (by decide)
  have is : Piece names (' ' :: "is\n") := Piece.of_isPlain (by decide)
  have front : Phrase names (preamble e top ++ "architecture " ++ name ++ " of " ++ top) := by
    apply Piece.append_phrase _ (Phrase.word ht)
    apply Phrase.append_cons _ (by decide) of
    apply ((piece_preamble ht).append word).append_phrase (Phrase.word hn)
  have heading : Piece names
      (preamble e top ++ "architecture " ++ name ++ " of " ++ top ++ " is\n") :=
    front.append_cons (by decide) is
  have read : tokens (preamble e top ++ "architecture " ++ name ++ " of " ++ top ++ " is\n") =
      tokens (preamble e top ++ "architecture " ++ name ++ " of " ++ top) ++ [.word "is"] := by
    rw [front.cut _ (by decide)]
    congr 1
  obtain ⟨constants, semicolon⟩ := piece_constants others he hv h
  use heading.append constants
  rw [heading.cut, read, List.getLast?_append, List.getLast?_concat]
  intro m last
  rw [Option.mem_def, Option.or_eq_some_iff] at last
  rcases last with last | ⟨-, last⟩
  · rw [semicolon m last]
    simp
  · obtain rfl := Option.some.inj last
    decide

/-- The lines between the component declaration and the instance are a piece. -/
theorem piece_signalLines (others : ¬names "others") (he : QuietEntity names e) {done : Text}
    (hd : ∀ c ∈ done, isWordChar c) (h : signals e style = .ok t) :
  Piece names
    ("\n" ++ t ++ line style 1 ("signal " ++ done ++ " : boolean := false;") ++ "begin\n\n")
  := by
  have feed : Piece names "\n" := Piece.stop (by decide)
  apply Piece.append _ (Piece.of_isPlain (by decide))
  apply (feed.append (piece_signals others he h)).append
  apply piece_line
  apply Phrase.append _ (Phrase.of_isCalm (by decide)) (by decide)
  apply Piece.append_phrase _ (Phrase.word hd)
  apply Piece.of_isPlain (by decide)

/-- The lines behind the instance are a piece. -/
theorem piece_processLines {clock reset stimulus name : Text} (hc : Piece names clock)
    (hr : Piece names reset) (hs : Piece names stimulus) (hn : ∀ c ∈ name, isWordChar c) :
  Piece names
    (clock ++ reset ++ "\n" ++ stimulus ++ "\nend architecture " ++ name ++ ";\n")
  := by
  have feed : Piece names "\n" := Piece.stop (by decide)
  have close : Piece names ";\n" := Piece.of_isPlain (by decide)
  apply Phrase.append_piece _ close (by decide) (by decide)
  apply Piece.append_phrase _ (Phrase.word hn)
  apply Piece.append _ (Piece.of_isPlain (by decide))
  apply ((hc.append hr).append feed).append hs

/-- A bench that consists of pieces drives an entity when one of them declares it as a component,
the one before ends with no colon and not with the word `end`, and a later one instantiates
it. -/
theorem drives_append {front component between inst rest : Text} (hf : Piece names front)
    (hc : Piece names component) (hb : Piece names between) (hi : Piece names inst)
    (hr : Piece names rest)
    (last : ∀ m ∈ (tokens front).getLast?, m ≠ .colon ∧ m ≠ .word "end")
    (declared : [.word "component", .word e.name.key] <+: tokens component)
    (repeated : ∀ p ∈ e.ports, tokens p.subtype <:+: tokens component)
    (instantiated : [.colon, .word e.name.key] <:+: tokens inst)
    (mapped : ∀ p ∈ e.ports, associates p.name.key (tokens inst)) :
  Silent names (tokens (front ++ (component ++ (between ++ (inst ++ rest))))) ∧
    Drives e (tokens (front ++ (component ++ (between ++ (inst ++ rest)))))
  := by
  use (hf.append (hc.append (hb.append (hi.append hr)))).silent
  rw [hf.cut, hc.cut, hb.cut, hi.cut]
  have part : tokens inst <:+: tokens front ++ (tokens component ++ (tokens between ++
      (tokens inst ++ tokens rest))) := by
    use tokens front ++ tokens component ++ tokens between, tokens rest
    simp
  constructor
  · obtain ⟨more, declared⟩ := declared
    rw [← declared, List.append_assoc, ← List.append_assoc]
    apply declares_append
    simpa using last
  · apply instances_ne_nil (instantiated.trans part)
  · intro p hp
    apply associates_of_isInfix (mapped p hp) part
  · intro p hp
    apply (repeated p hp).trans
    use tokens front, tokens between ++ (tokens inst ++ tokens rest)
    simp

/-- The bench of a quiet entity is silent, and it drives the entity. -/
theorem drives_assemble (others : ¬names "others") (he : QuietEntity names e)
    (hv : ∀ entry ∈ config.generics.entries, Quiet names entry.2) (hc : PlainNames config)
    {roles : Roles} {plan : Plan} (hp : QuietPlan names plan)
    (h : assemble e roles plan config = .ok t) :
  Silent names (tokens t) ∧ Drives e (tokens t)
  := by
  cases shared : findShared? e with
  | some n =>
    rw [assemble_of_shared shared] at h
    contradiction
  | none =>
    rw [assemble_of_not_shared shared] at h
    obtain ⟨constants, hconstants, h⟩ := bind_eq_ok.1 h
    obtain ⟨signals, hsignals, h⟩ := bind_eq_ok.1 h
    obtain ⟨clock, hclock, h⟩ := bind_eq_ok.1 h
    obtain ⟨reset, hreset, h⟩ := bind_eq_ok.1 h
    obtain ⟨stimulus, hstimulus, h⟩ := bind_eq_ok.1 h
    obtain rfl := Except.ok.inj h
    have done : ∀ c ∈ freshName e "tb_done", isWordChar c := isWordChar_freshName (by decide) e
    obtain ⟨front, last⟩ := piece_front others he hv (hc.topName e) hc.architectureName hconstants
    obtain ⟨component, declared, repeated⟩ :=
      piece_component he (config.style.merge Style.standard) 1
    obtain ⟨inst, instantiated, mapped⟩ := piece_instantiation he
      (isWordChar_freshName hc.instanceName e) (config.style.merge Style.standard) 1
    have between := piece_signalLines others he done hsignals
    have rest := piece_processLines
      (piece_paragraph (fun p s => piece_clockProcess others done) hclock)
      (piece_paragraph (fun p s => piece_resetProcess others) hreset)
      (piece_stimulusProcess others he.portName hp done hstimulus) hc.architectureName
    have drives := drives_append front component between inst rest last declared repeated
      instantiated mapped
    simpa only [List.append_assoc] using drives

end Testbench.Check
