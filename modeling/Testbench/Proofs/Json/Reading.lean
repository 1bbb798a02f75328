import Testbench.Json.Reading
import Testbench.Proofs.Json.Token

/-!
# Reading what is written

A reader that is given the tokens of a value is where it is behind the value, and so a value
without numbers in which no more than 127 arrays and objects are within one another is read
again from its text.
-/

namespace Testbench.Json

namespace Reader

variable {n : Nat} {v : Json} {frames : List Frame} {rest : List Token} {k : Token}

/-- The readers after tokens. -/
def run (reader : Reader) (ks : List Token) : Option Reader := ks.foldlM step? reader

@[simp]
theorem run_nil (reader : Reader) :
  reader.run [] = some reader
  := rfl

theorem run_cons {reader reader' : Reader} (h : reader.step? k = some reader')
    (ks : List Token) :
  reader.run (k :: ks) = reader'.run ks
  := by
  rw [run, List.foldlM_cons, h]
  rfl

/-- A value does not begin with the end of an array. -/
theorem tokens_eq_cons (v : Json) :
  ∃ k ks, v.tokens = k :: ks ∧ k ≠ .closeArray
  := by
  cases v <;> simp [tokens]

/-- The first item of an array is read as any other. -/
theorem step?_firstItem (hk : k ≠ .closeArray) :
  (firstItem frames).step? k = (value (.array [] :: frames)).step? k
  := by
  cases k <;> first | rfl | contradiction

/-- Lists of tokens with commas between them are the first one and the others, each behind a
comma. -/
theorem intercalate_cons_eq (first : List Token) (lists : List (List Token)) :
  List.intercalate [.comma] (first :: lists) = first ++ lists.flatMap (.comma :: ·)
  := by
  induction lists generalizing first with
  | nil => simp
  | cons second lists ih =>
    rw [List.intercalate_cons_cons, ih, List.flatMap_cons]
    simp

/-- The further items of an array, each of which leads a reader behind itself, lead it behind
the array. -/
theorem run_items {items : List Json} (h : ∀ v ∈ items, ∀ before rest,
      (value (.array before :: frames)).run (v.tokens ++ rest) =
        (complete v (.array before :: frames)).run rest)
    (before : List Json) (rest : List Token) :
  (afterItem before frames).run ((items.map tokens).flatMap (.comma :: ·) ++ .closeArray :: rest) =
    (complete (.array (before.reverse ++ items)) frames).run rest
  := by
  induction items generalizing before with
  | nil =>
    rw [List.append_nil]
    apply run_cons rfl
  | cons v items ih =>
    rw [List.map_cons, List.flatMap_cons, List.cons_append, List.cons_append, List.append_assoc]
    apply (run_cons rfl _).trans
    rw [h v List.mem_cons_self, complete, ih fun w hw => h w (List.mem_cons_of_mem v hw)]
    simp

/-- The further members of an object, whose values lead a reader behind themselves, lead it
behind the object. -/
theorem run_members {members : List (Text × Json)} (h : ∀ m ∈ members, ∀ before rest,
      (value (.object before m.1 :: frames)).run (m.2.tokens ++ rest) =
        (complete m.2 (.object before m.1 :: frames)).run rest)
    (before : List (Text × Json)) (rest : List Token) :
  (afterMember before frames).run
      ((members.map fun (k, v) => Token.string k :: .colon :: v.tokens).flatMap (.comma :: ·) ++
        .closeObject :: rest) =
    (complete (.object (before.reverse ++ members)) frames).run rest
  := by
  induction members generalizing before with
  | nil =>
    rw [List.append_nil]
    apply run_cons rfl
  | cons m members ih =>
    rw [List.map_cons, List.flatMap_cons, List.cons_append, List.cons_append, List.cons_append,
      List.cons_append, List.append_assoc]
    apply (run_cons rfl _).trans
    apply (run_cons rfl _).trans
    apply (run_cons rfl _).trans
    apply (h m List.mem_cons_self _ _).trans
    rw [complete, ih fun w hw => h w (List.mem_cons_of_mem m hw)]
    simp

/-- Items that each lead a reader behind themselves lead it, as an array, behind the array. -/
theorem run_array {items : List Json} (room : frames.length < depthLimit)
    (h : ∀ v ∈ items, ∀ before rest,
      (value (.array before :: frames)).run (v.tokens ++ rest) =
        (complete v (.array before :: frames)).run rest) (rest : List Token) :
  (value frames).run ((Json.array items).tokens ++ rest) =
    (complete (.array items) frames).run rest
  := by
  have opened : (value frames).step? .openArray = some (firstItem frames) := if_pos room
  rw [tokens, itemTokens_eq, List.cons_append, List.append_assoc, List.singleton_append,
    run_cons opened]
  cases items with
  | nil => apply run_cons rfl
  | cons v items =>
    obtain ⟨k, ks, split, hk⟩ := tokens_eq_cons v
    have first := h v List.mem_cons_self []
      ((items.map tokens).flatMap (.comma :: ·) ++ .closeArray :: rest)
    rw [List.map_cons, intercalate_cons_eq, List.append_assoc, split, List.cons_append]
    rw [split, List.cons_append] at first
    rw [run, List.foldlM_cons, step?_firstItem hk, ← List.foldlM_cons, ← run, first, complete]
    apply run_items fun w hw => h w (List.mem_cons_of_mem v hw)

/-- Members whose values lead a reader behind themselves lead it, as an object, behind the
object. -/
theorem run_object {members : List (Text × Json)} (room : frames.length < depthLimit)
    (h : ∀ m ∈ members, ∀ before rest,
      (value (.object before m.1 :: frames)).run (m.2.tokens ++ rest) =
        (complete m.2 (.object before m.1 :: frames)).run rest) (rest : List Token) :
  (value frames).run ((Json.object members).tokens ++ rest) =
    (complete (.object members) frames).run rest
  := by
  have opened : (value frames).step? .openObject = some (firstKey frames) := if_pos room
  rw [tokens, memberTokens_eq, List.cons_append, List.append_assoc, List.singleton_append,
    run_cons opened]
  cases members with
  | nil => apply run_cons rfl
  | cons m members =>
    rw [List.map_cons, intercalate_cons_eq, List.append_assoc, List.cons_append, List.cons_append]
    apply (run_cons rfl _).trans
    apply (run_cons rfl _).trans
    apply (h m List.mem_cons_self _ _).trans
    rw [complete]
    apply run_members fun w hw => h w (List.mem_cons_of_mem m hw)

/-- The tokens of a value lead a reader behind the value. -/
theorem run_tokens (h : Plain n v) (frames : List Frame) (bound : n + frames.length ≤ depthLimit)
    (rest : List Token) :
  (value frames).run (v.tokens ++ rest) = (complete v frames).run rest
  := by
  induction h generalizing frames rest with
  | null => rfl
  | bool b => rfl
  | string t => rfl
  | @array n items h ih =>
    apply run_array (by omega)
    intro v hv before rest
    apply ih v hv
    simp only [List.length_cons]
    omega
  | @object n members h ih =>
    apply run_object (by omega)
    intro m hm before rest
    apply ih m hm
    simp only [List.length_cons]
    omega

end Reader

/-- A value without numbers is read again from its text, unless more than 127 arrays and
objects are within one another. -/
theorem ofText?_pretty {n : Nat} {v : Json} (h : Plain n v) (bound : n ≤ Reader.depthLimit) :
  ofText? v.pretty = some v
  := by
  obtain ⟨length_le, readAll⟩ : Token.Reads v.pretty v.tokens := h.reads 0
  have tokenized : Token.ofText? v.pretty = some v.tokens := by
    have read := readAll (v.pretty.length - v.tokens.length) []
    rw [List.append_nil, Nat.sub_add_cancel length_le] at read
    rw [Token.ofText?, read]
    cases v.pretty.length - v.tokens.length with
    | zero => simp [Token.readAll?]
    | succ fuel => simp [Token.readAll?]
  have finished := Reader.run_tokens h [] (by simpa using bound) []
  rw [List.append_nil] at finished
  rw [ofText?, tokenized]
  simp only [Option.bind_eq_bind, Option.bind_some]
  rw [← Reader.run, finished]
  rfl

end Testbench.Json
