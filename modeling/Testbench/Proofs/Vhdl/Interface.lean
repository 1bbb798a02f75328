import Testbench.Proofs.Vhdl.PortDeclaration

/-!
# The laws of interface clauses

Generics and ports are read clause by clause, declaration by declaration and name by name: what
a clause gives does not depend on the other clauses, a list of declarations gives what its
members give, and several names in one declaration are several declarations.
-/

namespace Testbench.Vhdl

open Nesting

variable {α : Type} {keyword objectClass s t rest : Text} {malformed : Declaration.Fault → Error}
  {read : Text → Except Error (List α)} {Made : Text → Identifier → α → Prop}
  {ns : List Text} {xs : List α}

namespace Declaration

/-! ### Names -/

/-- A declaration of names. -/
def declaring (names rest : Text) : Text := names ++ (" : " ++ rest)

/-- A reader of declarations makes an object of each of the names and of what stands behind the
colon. -/
structure ReadsNames (objectClass : Text) (Made : Text → Identifier → α → Prop)
    (read : Text → Except Error (List α)) : Prop where
  exists_of_eq_ok {t : Text} {xs : List α} : read t = .ok xs →
    ∃ before rest is, t = before ++ ':' :: rest ∧ IsNamePart objectClass before is ∧
      List.Forall₂ (Made rest) is xs
  single {before rest : Text} {i : Identifier} {x : α} :
    IsNamePart objectClass before [i] → Made rest i x → read (before ++ ':' :: rest) = .ok [x]

/-- The trim of a declaration of names is trimmed before and behind its colon. -/
theorem trim_declaring (names rest : Text) :
  (declaring names rest).trim = (names ++ [' ']).trimStart ++ ':' :: Text.trimEnd (' ' :: rest)
  := by
  have shape : declaring names rest = (names ++ [' ']) ++ ':' :: ' ' :: rest := by
    simp [declaring]
  rw [shape, Text.trim_append_cons (by decide)]

/-- What stands before the colon names the objects as the names themselves do. -/
theorem isNamePart_trimStart (hc : IsWord objectClass) {is : List Identifier} :
  IsNamePart objectClass (s ++ [' ']).trimStart is ↔ IsNamePart objectClass s is
  := by
  have same : (s ++ [' ']).trimStart.trim = s.trim := by
    rw [Text.trim_trimStart, Text.trim_append_right (by decide)]
  rw [← isNamePart_trim hc, same, isNamePart_trim hc]

/-- Whether a declaration of names is a part of a list depends on what stands behind the
names. -/
theorem isPart_declaring_iff {is : List Identifier} (hc : IsWord objectClass)
    (h : IsNamePart objectClass s is) :
  IsPart (declaring s rest) ↔ IsPart (" : " ++ rest)
  := by
  have balanced := h.balanced hc
  have semicolon : ';' ∉ s := h.not_mem hc (by decide) (by decide) (by decide)
  constructor
  · rintro ⟨whole, lacks⟩
    rw [declaring, lacks_append, balanced.after] at lacks
    exact ⟨(whole.of_append balanced.after).2, lacks.2⟩
  · rintro ⟨behind, lacks⟩
    refine ⟨balanced.append behind, ?_⟩
    rw [declaring, lacks_append, balanced.after]
    exact ⟨lacks_of_not_mem semicolon, lacks⟩

/-- Declarations of one name each are parts of a list, and what is read of them are the objects that
the reader makes of the names. -/
theorem ReadsNames.forall₂_declaring (hr : ReadsNames objectClass Made read)
    (hc : IsWord objectClass) (behind : IsPart (" : " ++ rest)) {is : List Identifier}
    (names : List.Forall₂ (fun n i => IsNamePart objectClass n [i]) ns is)
    (made : List.Forall₂ (Made (Text.trimEnd (' ' :: rest))) is xs) :
  List.Forall₂ (fun n x => IsPart (declaring n rest) ∧ read (declaring n rest).trim = .ok [x]) ns xs
  := by
  induction names generalizing xs with
  | nil =>
    rw [List.forall₂_nil_left_iff] at made
    rw [made]
    apply List.Forall₂.nil
  | cons name _ ih =>
    obtain ⟨x, xs, here, others, rfl⟩ := List.forall₂_cons_left_iff.1 made
    apply List.Forall₂.cons _ (ih others)
    use (isPart_declaring_iff hc name).2 behind
    rw [trim_declaring]
    apply hr.single ((isNamePart_trimStart hc).2 name) here

/-- If a declaration of several names is read, then so is each declaration of one of them. -/
theorem ReadsNames.forall₂ (hr : ReadsNames objectClass Made read) (hc : IsWord objectClass)
    (hn : ∀ n ∈ ns, ',' ∉ n ∧ ':' ∉ n ∧ ¬n.trim.sameWord objectClass)
    (part : IsPart (declaring (Text.join ", " ns) rest))
    (h : read (declaring (Text.join ", " ns) rest).trim = .ok xs) :
  List.Forall₂ (fun n x => IsPart (declaring n rest) ∧ read (declaring n rest).trim = .ok [x]) ns xs
  := by
  obtain ⟨before, behind, is, shape, names, made⟩ := hr.exists_of_eq_ok h
  have colon : ':' ∉ (Text.join ", " ns ++ [' ']).trimStart := by
    intro mem
    have mem : ':' ∈ Text.join ", " ns := by
      simpa using (List.dropWhile_suffix isBlank).subset mem
    rcases Text.mem_join mem with sep | ⟨n, hn', mem⟩
    · exact absurd sep (by decide)
    · exact (hn n hn').2.1 mem
  rw [trim_declaring] at shape
  obtain ⟨rfl, rfl⟩ := Text.append_cons_inj colon
    (names.not_mem hc (by decide) (by decide) (by decide)) shape
  rw [isNamePart_trimStart hc] at names
  apply hr.forall₂_declaring hc ((isPart_declaring_iff hc names).1 part) _ made
  apply names.of_join hc
  intro n hn'
  use (hn n hn').1, (hn n hn').2.2

/-- A declaration of several names is read like the declarations of one name each. -/
theorem ReadsNames.readClause (hr : ReadsNames objectClass Made read) (hk : IsWord keyword)
    (hc : IsWord objectClass)
    (hn : ∀ n ∈ ns, ',' ∉ n ∧ ':' ∉ n ∧ ¬n.trim.sameWord objectClass)
    (part : IsPart (declaring (Text.join ", " ns) rest))
    (h : Declaration.readClause keyword malformed read
      (clauseText keyword (declaring (Text.join ", " ns) rest)) = .ok xs) :
  Declaration.readClause keyword malformed read
    (clauseText keyword (Text.join "; " (ns.map (declaring · rest)))) = .ok xs
  := by
  have ne : ∀ s : Text, (declaring s rest).trim ≠ [] := by
    intro s
    simp [trim_declaring]
  rw [readClause_single hk part, readOne, if_pos (ne _)] at h
  obtain ⟨parts, each⟩ := (List.forall₂_and_left _ _).1 (hr.forall₂ hc hn part h)
  have all : (ns.map (declaring · rest)).mapM (readOne read) = .ok (xs.map ([·])) := by
    rw [mapM_eq_ok, List.forall₂_map_left_iff, List.forall₂_map_right_iff]
    apply each.imp
    intro n x one
    rw [readOne, if_pos (ne n), one]
  rw [readClause_join hk (by simpa using parts), all]
  simp [Except.map, ← List.flatMap_def]

/-! ### Clauses -/

/-- The laws of a reader of the clause with a keyword, where `other` is the keyword of another
clause. -/
structure ReadsClauses (keyword other objectClass : Text) (read : Text → Except Error (List α)) :
    Prop where
  /-- A list of declarations gives what they give one by one, or the first of their errors. -/
  list (ds : List Text) : (∀ d ∈ ds, IsPart d) →
    read (clauseText keyword (Text.join "; " ds)) =
      (ds.mapM fun d => read (clauseText keyword d)).map List.flatten
  /-- A clause that follows does not matter. -/
  before (s t : Text) : Balanced s → Balanced t →
    read (clauseText keyword s ++ ' ' :: clauseText other t) = read (clauseText keyword s)
  /-- A clause that precedes does not matter. -/
  behind (s t : Text) : Balanced s → Balanced t →
    read (clauseText other t ++ ' ' :: clauseText keyword s) = read (clauseText keyword s)
  /-- A declaration of several names that is read gives what declarations of one name give. -/
  names (ns : List Text) (rest : Text) (xs : List α) :
    (∀ n ∈ ns, ',' ∉ n ∧ ':' ∉ n ∧ ¬n.trim.sameWord objectClass) →
    IsPart (declaring (Text.join ", " ns) rest) →
    read (clauseText keyword (declaring (Text.join ", " ns) rest)) = .ok xs →
    read (clauseText keyword (Text.join "; " (ns.map (declaring · rest)))) = .ok xs

/-- A reader of names reads clauses. -/
theorem ReadsNames.readsClauses {other : Text} (hr : ReadsNames objectClass Made read)
    (hk : IsWord keyword) (ho : IsWord other) (hc : IsWord objectClass)
    (apart : ¬other.sameWord keyword) :
  ReadsClauses keyword other objectClass (Declaration.readClause keyword malformed read)
  := by
  constructor
  · intro ds hd
    apply readClause_join_eq_mapM hk hd
  · intro s t hs _
    apply readClause_append hk hs
  · intro s t _ ht
    apply readClause_clauseText_append hk ho ht apart
  · intro ns rest xs hn part h
    apply hr.readClause hk hc hn part h

end Declaration

open Declaration

/-- A generic is made of a name and of a type and a default behind the colon. -/
def Generic.IsMadeOf (rest : Text) (i : Identifier) (g : Generic) : Prop :=
  rest.head? ≠ some '=' ∧ splitType rest = .ok (g.type, g.default) ∧ g.name = i

/-- Generics are made of the names of their declarations. -/
theorem Generic.readsNames :
  ReadsNames "constant" Generic.IsMadeOf Generic.ofDeclaration?
  := by
  constructor
  · intro t gs h
    simp only [ofDeclaration?, mapError_eq_ok, ofDeclaration, bind_eq_ok, Prod.exists, pure,
      Except.pure, Except.ok.injEq] at h
    obtain ⟨before, rest, parted, type, default, typed, is, named, rfl⟩ := h
    obtain ⟨before', rfl, apart, part⟩ :=
      (exists_splitNames_iff isWord_constant).1 ⟨before, parted, named⟩
    use before', rest, is, rfl, part
    rw [List.forall₂_map_right_iff, List.forall₂_same]
    intro i _
    use apart, typed
  · rintro before rest i g part ⟨apart, typed, rfl⟩
    obtain ⟨before', parted, named⟩ :=
      (exists_splitNames_iff isWord_constant).2 ⟨before, rfl, apart, part⟩
    rw [ofDeclaration?, mapError_eq_ok, ofDeclaration]
    apply bind_eq_ok.2 ⟨_, parted, ?_⟩
    apply bind_eq_ok.2 ⟨_, typed, ?_⟩
    exact bind_eq_ok.2 ⟨_, named, rfl⟩

/-- A port is made of a name and of a subtype and a default behind the colon. -/
def Port.IsMadeOf (rest : Text) (i : Identifier) (p : Port) : Prop :=
  ∃ shape default, IsRest rest shape default ∧ Declares shape default i p

/-- Ports are made of the names of their declarations. -/
theorem Port.readsNames :
  ReadsNames "signal" Port.IsMadeOf Port.ofDeclaration
  := by
  constructor
  · intro t ps h
    obtain ⟨is, shape, default, declaration, made⟩ := ofDeclaration_eq_ok_iff.1 h
    cases declaration with
    | @intro before rest _ _ _ part behind _ =>
      use before, rest, is, rfl, part
      apply made.imp
      intro i p declares
      use shape, default, behind
  · rintro before rest i p part ⟨shape, default, behind, declares⟩
    apply ofDeclaration_eq_ok_iff.2
    refine ⟨[i], shape, default, IsDeclaration.intro part behind ?_, by simpa using declares⟩
    rw [← declares.range, ← declares.type]
    apply p.range_isSome

/-- Generics and ports are read declaration by declaration, each in their own clause. -/
theorem readsClauses_ofBody :
  ReadsClauses "generic" "port" "constant" Generic.ofBody ∧
    ReadsClauses "port" "generic" "signal" Port.ofBody
  := by
  rw [Generic.ofBody_eq_readClause, Port.ofBody_eq_readClause]
  constructor
  · apply Generic.readsNames.readsClauses isWord_generic isWord_port isWord_constant (by decide)
  · apply Port.readsNames.readsClauses isWord_port isWord_generic isWord_signal (by decide)

/-- The ports that `s, t : natural` declares. -/
def naturalPorts : List Port :=
  [⟨⟨"s", by decide⟩, .input, .natural, none, none, by decide⟩,
    ⟨⟨"t", by decide⟩, .input, .natural, none, none, by decide⟩]

/-- The two ports are declared one by one, an error behind a blank declaration is found, and a
generic is found behind a port with the name of its clause. -/
theorem ofBody_naturalPorts :
  Port.ofBody (clauseText "port" (Text.join "; " (["s".toList, "t"].map (declaring · "natural")))) =
      .ok naturalPorts ∧
    Port.ofBody (clauseText "port" (Text.join "; " ["s : bit", "", "t", "u"])) =
      .error (.malformedPort "t" .missingColon) ∧
    Generic.ofBody (clauseText "port" "generic : bit" ++ ' ' :: clauseText "generic" "w : bit") =
      .ok [⟨⟨"w", by decide⟩, "bit", none⟩]
  := by
  obtain ⟨generics, ports⟩ := readsClauses_ofBody
  refine ⟨?_, ?_, ?_⟩
  · apply ports.names ["s", "t"] "natural" naturalPorts (by decide) (by decide) (by decide)
  · rw [ports.list ["s : bit", "", "t", "u"] (by decide)]
    decide
  · rw [generics.behind "w : bit" "generic : bit" (by decide) (by decide)]
    decide

end Testbench.Vhdl
