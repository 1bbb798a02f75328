import Testbench.Proofs.Offset.Place
import Testbench.Proofs.Offset.Reading
import Testbench.Proofs.Vhdl.Declaration
import Testbench.Proofs.Vhdl.Range

/-!
# Reading without a misstep

Each reader that works by offsets makes no misstep: it is `safe` and gives what the reader gives
that takes texts apart.  For a reader this follows from the same of the readers and searches of
which it is made.
-/

namespace Testbench.Vhdl.Offset

variable {ε ε' α β : Type} {keyword objectClass t r rest declaration first : Text}

/-- The reading that makes no misstep and has a result. -/
def safe (x : Except ε α) : Reading ε α := ExceptT.mk (.ok x)

/-! ### Chains of readings -/

/-- A search without a misstep is followed by what is made of its result. -/
theorem found_bind {x : Except Misstep α} {a : α} {f : α → Reading ε β} (h : x = .ok a) :
  (liftM x : Reading ε α) >>= f = f a
  := by
  rw [h]
  rfl

/-- A safe reading is followed safely if its value is. -/
theorem safe_bind {x : Except ε α} {f : α → Reading ε β} {g : α → Except ε β}
    (h : ∀ a, x = .ok a → f a = safe (g a)) :
  safe x >>= f = safe (x >>= g)
  := by
  cases x with
  | error e => rfl
  | ok a => exact h a rfl

theorem safe_map_bind {γ : Type} {x : Except ε α} {k : α → γ} {f : γ → Reading ε β}
    {g : α → Except ε β} (h : ∀ a, x = .ok a → f (k a) = safe (g a)) :
  safe (x.map k) >>= f = safe (x >>= g)
  := by
  cases x with
  | error e => rfl
  | ok a => exact h a rfl

/-- What is done to a fault does not make a reading unsafe. -/
theorem safe_adapt (f : ε → ε') (x : Except ε α) :
  ExceptT.adapt f (safe x : Reading ε α) = safe (x.mapError f)
  := by
  cases x <;> rfl

/-- A list is read safely if its members are. -/
theorem safe_mapM {f : α → Reading ε β} {g : α → Except ε β} (h : ∀ x, f x = safe (g x))
    (xs : List α) :
  xs.mapM f = safe (xs.mapM g)
  := by
  induction xs with
  | nil => rfl
  | cons x xs ih =>
    rw [List.mapM_cons, List.mapM_cons, h x]
    apply safe_bind
    intro y _
    rw [ih]
    apply safe_bind
    intro ys _
    rfl

/-! ### Clauses and declarations -/

theorem clause?_safe (hk : IsWord keyword) (body : Text) :
  clause? keyword body = safe (Declaration.clause? keyword body)
  := by
  rw [clause?, Declaration.clause?, found_bind (findKeyword_zero hk body)]
  cases split : splitWord? keyword body with
  | none => rfl
  | some parts =>
    obtain ⟨before, rest⟩ := parts
    have inside : rest <:+ body := (isPrefix_of_splitWord? split).2
    have start := trimStart_isSuffix inside
    simp only [Option.map_some, byteCount_add_keyword hk split]
    rw [found_bind (skipBlanks_offset inside), found_bind (Text.sliceFrom_offset start)]
    generalize rest.trimStart = r at start
    by_cases opened : r.head? = some '('
    · obtain ⟨r, rfl⟩ := List.head?_eq_some_iff.1 opened
      rw [if_pos opened, found_bind (findClosing_offset start)]
      cases closes : splitClosing? r with
      | none =>
        simp only [closes]
        rfl
      | some parts =>
        simp only [closes]
        exact found_bind (slice_closing start closes).1
    · rw [if_neg opened]
      split
      · contradiction
      · rfl

theorem list_eq (inside : Text) :
  list inside = .ok (Declaration.list inside)
  := bind_eq_ok.2 ⟨_, split_eq (by decide) inside, rfl⟩

/-- The text is cut at a colon of one byte. -/
theorem splitNames_safe (declaration : Text) :
  splitNames declaration = safe (Declaration.splitNames declaration)
  := by
  rw [splitNames, findColon_eq, Declaration.splitNames]
  cases split : splitColon? declaration with
  | none => rfl
  | some parts =>
    obtain ⟨before, rest⟩ := parts
    obtain ⟨rfl, -⟩ := splitColon?_eq_some_iff.1 split
    have back := Text.sliceFrom_append (before ++ [':']) rest
    rw [List.append_assoc, Text.byteCount_append] at back
    refine (found_bind (Text.sliceTo_append before (':' :: rest))).trans ?_
    exact (found_bind back).trans rfl

/-- The text is cut at an assignment of two bytes. -/
theorem splitDefault_safe (t : Text) :
  splitDefault t = safe (Declaration.splitDefault t)
  := by
  rw [splitDefault, findAssignment_eq, Declaration.splitDefault]
  cases split : splitAssignment? t with
  | none => rfl
  | some parts =>
    obtain ⟨before, rest⟩ := parts
    obtain ⟨rfl, -⟩ := splitAssignment?_eq_some_iff.1 split
    have back := Text.sliceFrom_append (before ++ [':', '=']) rest
    rw [List.append_assoc, Text.byteCount_append] at back
    refine (found_bind back).trans ?_
    simp only
    split
    · rfl
    · exact (found_bind (Text.sliceTo_append before (':' :: '=' :: rest))).trans rfl

theorem names_safe (objectClass t : Text) :
  names objectClass t = safe (Declaration.names objectClass t)
  := (found_bind (stripWord_eq objectClass t)).trans (found_bind (split_eq (by decide) _))

/-! ### Ranges -/

theorem ofDirection?_eq (t : Text) (d : Direction) :
  ofDirection? t d = .ok (Range.ofDirection? t d)
  := by
  refine bind_eq_ok.2 ⟨_, findKeyword_zero d.isWord_name t, ?_⟩
  rw [Range.ofDirection?]
  cases split : splitWord? d.name t with
  | none => rfl
  | some parts =>
    obtain ⟨before, rest⟩ := parts
    obtain ⟨⟨r, eq⟩, back⟩ := isPrefix_of_splitWord? split
    have front := Text.sliceTo_append before r
    rw [eq] at front
    simp only [Option.map_some, byteCount_add_keyword d.isWord_name split]
    refine bind_eq_ok.2 ⟨_, front, bind_eq_ok.2 ⟨_, Text.sliceFrom_offset back, ?_⟩⟩
    simp only [Option.bind_eq_bind, Option.bind_some, Bound.ofText_trim]
    split <;> rfl

theorem ofPair?_eq (t : Text) :
  ofPair? t = .ok (Range.ofPair? t)
  := by
  refine bind_eq_ok.2 ⟨_, split_eq (by decide) t, ?_⟩
  rw [Range.ofPair?]
  split <;> simp_all [pure, Except.pure]

theorem range_safe (t : Text) :
  range t = safe (Range.ofText t)
  := by
  rw [range, Range.ofText]
  split
  · rfl
  · rw [found_bind (ofDirection?_eq t.trim .down)]
    cases Range.ofDirection? t.trim .down with
    | some r => rfl
    | none =>
      simp only
      rw [found_bind (ofDirection?_eq t.trim .up)]
      cases Range.ofDirection? t.trim .up with
      | some r => rfl
      | none =>
        simp only
        rw [found_bind (ofPair?_eq t.trim)]
        cases Range.ofPair? t.trim <;> rfl

/-! ### Generics -/

theorem readGenerics_safe (declaration : Text) :
  readGenerics declaration = safe (Generic.ofDeclaration declaration)
  := by
  rw [readGenerics, Generic.ofDeclaration, splitNames_safe]
  apply safe_bind
  rintro ⟨before, rest⟩ -
  simp only
  rw [splitDefault_safe, Generic.splitType, bind_assoc]
  apply safe_bind
  rintro ⟨type, default⟩ -
  simp only
  split
  · rfl
  · rw [names_safe]
    apply safe_bind
    intro names _
    rfl

theorem genericsOf_safe (declaration : Text) :
  genericsOf declaration = safe (Generic.ofDeclaration? declaration)
  := by
  rw [genericsOf, readGenerics_safe, safe_adapt]
  rfl

/-- What a clause declares is read safely if what each declaration declares is. -/
theorem clause_safe {x : Except Error (Option Text)} {f : Text → Reading Error (List α)}
    {g : Text → Except Error (List α)} (h : ∀ declaration, f declaration = safe (g declaration)) :
  (do
    match ← safe x with
    | none => return []
    | some inside => return (← (← list inside).mapM f).flatten : Reading Error (List α)) =
  safe (do
    match ← x with
    | none => return []
    | some inside => return (← (Declaration.list inside).mapM g).flatten)
  := by
  apply safe_bind
  rintro (_ | inside) -
  · rfl
  · refine (found_bind (list_eq inside)).trans ?_
    rw [safe_mapM h]
    apply safe_bind
    intro all _
    rfl

theorem generics_safe (body : Text) :
  generics body = safe (Generic.ofBody body)
  := by
  rw [generics, clause?_safe isWord_generic, safe_adapt]
  exact clause_safe genericsOf_safe

/-! ### Ports -/

/-- The mode is read, and the offset behind it is that of the text behind it. -/
theorem readMode_safe (declaration first subtype : Text) :
  readMode declaration first subtype =
    safe ((Port.readMode declaration first subtype).map fun (mode, rest) =>
      (mode, Text.offset subtype rest))
  := by
  rw [readMode, Port.readMode, found_bind (nextWord_zero subtype)]
  cases read : nextWord? subtype with
  | none => rfl
  | some parts =>
    obtain ⟨word, rest⟩ := parts
    simp only [Option.map_some]
    cases Mode.ofName? word with
    | some m => rfl
    | none =>
      simp only
      split
      · rw [Except.map, Text.offset_self]
        rfl
      · rw [found_bind (nextWord_offset (isSuffix_of_nextWord? read)), Option.isSome_map]
        split <;> rfl

/-- What is left behind the mode is the end of the subtype. -/
theorem isSuffix_of_readMode {subtype : Text} {m : Mode}
    (h : Port.readMode declaration first subtype = .ok (m, rest)) :
  rest <:+ subtype
  := by
  rw [Port.readMode] at h
  cases read : nextWord? subtype with
  | none => simp [read] at h
  | some parts =>
    obtain ⟨word, behind⟩ := parts
    simp only [read] at h
    split at h
    · obtain ⟨-, rfl⟩ := Prod.mk.inj (Except.ok.inj h)
      exact isSuffix_of_nextWord? read
    · split at h
      · obtain ⟨-, rfl⟩ := Prod.mk.inj (Except.ok.inj h)
        exact List.suffix_refl _
      · split at h <;> cases h

theorem readRange_safe (h : r <:+ t) :
  readRange declaration t (t.offset r) =
    safe ((Port.readRange declaration r).map fun (range, tail) => (range, tail.trim))
  := by
  rw [readRange, Port.readRange.eq_def, found_bind (Text.sliceFrom_offset h)]
  by_cases opened : r.head? = some '('
  · obtain ⟨r, rfl⟩ := List.head?_eq_some_iff.1 opened
    rw [if_pos opened, found_bind (findClosing_offset h)]
    cases closes : splitClosing? r with
    | none =>
      simp only [closes]
      rfl
    | some parts =>
      obtain ⟨inside, behind⟩ := parts
      obtain ⟨cut, back⟩ := slice_closing h closes
      simp only [closes]
      refine (found_bind cut).trans ?_
      rw [range_safe, safe_adapt]
      cases Range.ofText inside with
      | error f => rfl
      | ok range => exact (found_bind back).trans rfl
  · rw [if_neg opened]
    refine (found_bind (Text.sliceFrom_offset h)).trans ?_
    split
    · contradiction
    · rfl

theorem readSubtype_safe (declaration first subtype : Text) :
  readSubtype declaration first subtype = safe (Port.readSubtype declaration first subtype)
  := by
  rw [readSubtype, Port.readSubtype, readMode_safe]
  apply safe_map_bind
  rintro ⟨mode, indication⟩ read
  have place := isSuffix_of_readMode read
  simp only
  rw [found_bind (nextWord_offset place)]
  cases word : nextWord? indication with
  | none => rfl
  | some parts =>
    obtain ⟨name, rest⟩ := parts
    have behind := (isSuffix_of_nextWord? word).trans place
    simp only [Option.map_some]
    cases DataType.ofName? name with
    | none => rfl
    | some type =>
      simp only
      rw [found_bind (skipBlanks_offset behind), readRange_safe (trimStart_isSuffix behind)]
      apply safe_map_bind
      rintro ⟨range, tail⟩ -
      simp only
      split
      · rfl
      · rw [found_bind (stripWord_eq "range" tail.trim)]
        split
        · exact (found_bind (Text.sliceFrom_offset place)).trans rfl
        · rfl

theorem portsOf_safe (declaration : Text) :
  portsOf declaration = safe (Port.ofDeclaration declaration)
  := by
  rw [portsOf, Port.ofDeclaration, splitNames_safe, safe_adapt]
  apply safe_bind
  rintro ⟨before, rest⟩ -
  simp only
  rw [names_safe, safe_adapt]
  apply safe_bind
  intro names _
  rw [splitDefault_safe, safe_adapt]
  apply safe_bind
  rintro ⟨subtype, default⟩ -
  simp only
  rw [readSubtype_safe]
  apply safe_bind
  intro shape _
  rfl

theorem ports_safe (body : Text) :
  ports body = safe (Port.ofBody body)
  := by
  rw [ports, clause?_safe isWord_port, safe_adapt]
  exact clause_safe portsOf_safe

/-! ### Entity declarations -/

theorem readHeader_offset (h : r <:+ t) :
  readHeader t (t.offset r) =
    .ok ((EntityText.readHeader? r).map fun (name, rest) => (name, t.offset rest))
  := by
  refine bind_eq_ok.2 ⟨_, nextWord_offset h, ?_⟩
  rw [EntityText.readHeader?]
  cases first : nextWord? r with
  | none => rfl
  | some parts =>
    obtain ⟨name, rest⟩ := parts
    have behind := (isSuffix_of_nextWord? first).trans h
    simp only [Option.map_some, Option.bind_eq_bind, Option.bind_some]
    refine bind_eq_ok.2 ⟨_, nextWord_offset behind, ?_⟩
    cases nextWord? rest with
    | none => rfl
    | some parts =>
      simp only [Option.map_some, Option.bind_some]
      split <;> rfl

/-- A header is searched for behind the first word `entity`. -/
theorem nextHeader_eq (t : Text) (start : Nat) :
  nextHeader t start = (do
    match ← findKeyword "entity" t start with
    | none => return none
    | some i =>
      match ← readHeader t (i + Text.byteCount "entity") with
      | some header => return some header
      | none => nextHeader t (i + Text.byteCount "entity"))
  := by
  rw [nextHeader]
  split
  · next found => rw [found]; rfl
  · next found => rw [found]; rfl
  · next found => rw [found]; rfl

/-- Behind the word a header is read, or else searched for. -/
theorem nextHeader_keyword {before : Text} (h : r <:+ t)
    (split : splitWord? "entity" r = some (before, rest)) :
  nextHeader t (t.offset r) =
    match EntityText.readHeader? rest with
    | some (name, behind) => .ok (some (name, t.offset behind))
    | none => nextHeader t (t.offset rest)
  := by
  obtain ⟨found, -, place, behind⟩ := findKeyword_eq_some EntityText.isWord_entity h split
  have inside := (isPrefix_of_splitWord? split).2.trans h
  rw [nextHeader_eq, place]
  simp only [bind, Except.bind, behind]
  rw [readHeader_offset inside]
  cases EntityText.readHeader? rest <;> rfl

theorem nextHeader_offset (h : r <:+ t) :
  nextHeader t (t.offset r) =
    .ok ((EntityText.nextHeader? r).map fun (name, rest) => (name, t.offset rest))
  := by
  fun_induction EntityText.nextHeader? r with
  | case1 r absent =>
    rw [nextHeader_eq]
    exact bind_eq_ok.2 ⟨_, findKeyword_eq_none EntityText.isWord_entity h absent, rfl⟩
  | case2 r before rest split header read =>
    rw [nextHeader_keyword h split, read]
    rfl
  | case3 r before rest split read ih =>
    rw [nextHeader_keyword h split, read]
    exact ih ((isPrefix_of_splitWord? split).2.trans h)

/-- Headers are counted behind the first one. -/
theorem countHeaders_eq (t : Text) (start : Nat) :
  countHeaders t start = (do
    match ← nextHeader t start with
    | none => return 0
    | some (_, behind) => return (← countHeaders t behind) + 1)
  := by
  rw [countHeaders]
  split
  · next found => rw [found]; rfl
  · next found => rw [found]; rfl
  · next found => rw [found]; rfl

theorem countHeaders_offset (h : r <:+ t) :
  countHeaders t (t.offset r) = .ok (EntityText.countHeaders r)
  := by
  rw [countHeaders_eq]
  fun_induction EntityText.countHeaders r with
  | case1 r none =>
    refine bind_eq_ok.2 ⟨_, nextHeader_offset h, ?_⟩
    rw [none]
    rfl
  | case2 r name rest found ih =>
    have inside := (EntityText.isSuffix_of_nextHeader? found).trans h
    refine bind_eq_ok.2 ⟨_, nextHeader_offset h, ?_⟩
    rw [found]
    refine bind_eq_ok.2 ⟨_, ?_, rfl⟩
    rw [countHeaders_eq]
    exact ih inside

theorem readClosing_offset (h : r <:+ t) :
  readClosing t (t.offset r) =
    .ok ((EntityText.readClosing r).1, t.offset (EntityText.readClosing r).2)
  := by
  refine bind_eq_ok.2 ⟨_, nextWord_offset h, ?_⟩
  rw [EntityText.readClosing]
  cases first : nextWord? r with
  | none => rfl
  | some parts =>
    obtain ⟨word, rest⟩ := parts
    have behind := (isSuffix_of_nextWord? first).trans h
    simp only [Option.map_some]
    split
    · refine bind_eq_ok.2 ⟨_, nextWord_offset behind, ?_⟩
      cases nextWord? rest <;> rfl
    · rfl

/-- What is left behind the closing part is the end of the text. -/
theorem isSuffix_of_readClosing (t : Text) :
  (EntityText.readClosing t).2 <:+ t
  := by
  rw [EntityText.readClosing]
  cases first : nextWord? t with
  | none => exact List.suffix_refl t
  | some parts =>
    obtain ⟨word, rest⟩ := parts
    have inside := isSuffix_of_nextWord? first
    simp only
    split
    · cases second : nextWord? rest with
      | none => exact inside
      | some parts => exact (isSuffix_of_nextWord? second).trans inside
    · exact inside

theorem entityText_safe (t : Text) :
  entityText t = safe (EntityText.ofSource t)
  := by
  have first := nextHeader_offset (List.suffix_refl t)
  rw [Text.offset_self] at first
  rw [entityText, EntityText.ofSource, found_bind first]
  cases header : EntityText.nextHeader? t with
  | none => rfl
  | some parts =>
    obtain ⟨name, rest⟩ := parts
    have inside := EntityText.isSuffix_of_nextHeader? header
    simp only [Option.map_some]
    cases split : splitWord? "end" rest with
    | none => exact (found_bind (findKeyword_eq_none EntityText.isWord_end inside split)).trans rfl
    | some parts =>
      obtain ⟨body, behind⟩ := parts
      obtain ⟨found, rfl, place, after⟩ := findKeyword_eq_some EntityText.isWord_end inside split
      have closing := (isPrefix_of_splitWord? split).2.trans inside
      have tail := (isSuffix_of_readClosing behind).trans closing
      have start := trimStart_isSuffix tail
      rw [found_bind place]
      simp only [after]
      rw [found_bind (Text.slice_offset inside), found_bind (readClosing_offset closing)]
      generalize EntityText.readClosing behind = parts at tail start
      obtain ⟨named, r⟩ := parts
      simp only at start tail ⊢
      cases named.filter fun c => !c.sameWord name with
      | some c => rfl
      | none =>
        simp only
        rw [found_bind (skipBlanks_offset tail), found_bind (Text.sliceFrom_offset start)]
        generalize r.trimStart = r at start
        by_cases ended : r.head? = some ';'
        · obtain ⟨r, rfl⟩ := List.head?_eq_some_iff.1 ended
          have past : t.offset (';' :: r) + 1 = t.offset r := Text.offset_add_utf8Size start
          rw [if_pos ended, past,
            found_bind (countHeaders_offset ((List.suffix_cons ';' r).trans start))]
          simp only
          cases EntityText.countHeaders r <;> rfl
        · rw [if_neg ended]
          split
          · contradiction
          · rfl

theorem entity_safe (t : Text) :
  entity t = safe (Entity.ofSource t)
  := by
  rw [entity, entityText_safe, Entity.ofSource]
  apply safe_bind
  intro declared _
  rw [generics_safe]
  apply safe_bind
  intro generics _
  rw [ports_safe]
  apply safe_bind
  intro ports _
  rfl

/-- The search for the end of a parenthesis makes no misstep at any place of a text. -/
theorem exists_findClosing {i : Nat} (h : t.IsPlace i) :
  ∃ closing, findClosing t i = .ok closing
  := by
  obtain ⟨before, rest, rfl, rfl⟩ := h
  by_cases opened : rest.head? = some '('
  · obtain ⟨r, rfl⟩ := List.head?_eq_some_iff.1 opened
    have closing := findClosing_offset (List.suffix_append before ('(' :: r))
    rw [Text.offset_append] at closing
    exact ⟨_, closing⟩
  · refine ⟨none, bind_eq_ok.2 ⟨_, Text.sliceFrom_append before rest, ?_⟩⟩
    rw [if_neg opened]
    rfl

/-- Reading by offsets makes no misstep in any text.  Where a text is cut there are two places
between its characters, in order and within the text; the search for the end of a parenthesis never
counts below zero; and what is read of a source text, of an entity's body and of a range is what is
read when the text is taken apart. -/
theorem reads_without_misstep (t : Text) :
  (∀ i j, (∃ part, t.slice i j = .ok part) ↔
    i ≤ j ∧ j ≤ t.byteCount ∧ t.IsPlace i ∧ t.IsPlace j) ∧
  (∀ i, t.IsPlace i → ∃ closing, findClosing t i = .ok closing) ∧
  (entity t).run = .ok (Entity.ofSource t) ∧
  (entityText t).run = .ok (EntityText.ofSource t) ∧
  (generics t).run = .ok (Generic.ofBody t) ∧
  (ports t).run = .ok (Port.ofBody t) ∧
  (range t).run = .ok (Range.ofText t)
  := by
  refine ⟨fun i j => Text.exists_slice_iff, fun i => exists_findClosing, ?_, ?_, ?_, ?_, ?_⟩
  · rw [entity_safe]
    rfl
  · rw [entityText_safe]
    rfl
  · rw [generics_safe]
    rfl
  · rw [ports_safe]
    rfl
  · rw [range_safe]
    rfl

/-- A keyword beside a character of two bytes is a word, and behind it the text is cut at its
bytes. -/
theorem reads_without_misstep_range :
  (∃ closing, findClosing "é(\")\"(to)) DOWNTOé0" 2 = .ok closing) ∧
    (range "é(\")\"(to)) DOWNTOé0").run = .ok (.ok ⟨.expr "é(\")\"(to))", .expr "é0", .down⟩)
  := by
  obtain ⟨-, closing, -, -, -, -, read⟩ := reads_without_misstep "é(\")\"(to)) DOWNTOé0"
  constructor
  · exact closing 2 ⟨"é", "(\")\"(to)) DOWNTOé0", by decide, by decide⟩
  · rw [read]
    decide

end Testbench.Vhdl.Offset
