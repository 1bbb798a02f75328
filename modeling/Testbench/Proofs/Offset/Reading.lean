import Testbench.Proofs.Offset.Search
import Testbench.Vhdl.Source

/-!
# Reading by offsets

The reader of source in a form that keeps the text whole, built on the searches by offsets.  Of the
source it finds the same faults as the reader that takes texts apart, and in addition it can make a
`Misstep`: a `Reading` has either.
-/

namespace Testbench.Vhdl.Offset

/-- Reading that finds a value or a fault, unless it makes a misstep. -/
abbrev Reading (ε α : Type) := ExceptT ε (Except Misstep) α

/-! ### Clauses and declarations -/

/-- The inside of the first clause with a keyword in the body of an entity, if there is one. -/
def clause? (keyword body : Text) : Reading Declaration.Fault (Option Text) := do
  match ← findKeyword keyword body 0 with
  | none => return none
  | some start =>
    let opening ← skipBlanks body (start + keyword.byteCount)
    if (← body.sliceFrom opening).head? = some '(' then
      match ← findClosing body opening with
      | some closing => return some (← body.slice (opening + 1) closing).trim
      | none => throw .missingClose
    else throw .missingOpen

/-- The declarations in the inside of a clause, without the empty ones. -/
def list (inside : Text) : Except Misstep (List Text) := do
  return (← split ';' inside).filter (· ≠ [])

/-- The parts of a declaration before and behind its colon. -/
def splitNames (declaration : Text) : Reading Declaration.Fault (Text × Text) := do
  match findColon declaration with
  | some colon => return (← declaration.sliceTo colon, ← declaration.sliceFrom (colon + 1))
  | none => throw .missingColon

/-- The subtype and the default, if any, of the part of a declaration behind its colon. -/
def splitDefault (t : Text) : Reading Declaration.Fault (Text × Option Text) := do
  match findAssignment t with
  | none => return (t.trim, none)
  | some i =>
    let value := (← t.sliceFrom (i + 2)).trim
    if value = [] then throw .missingDefault else return ((← t.sliceTo i).trim, some value)

/-- The names in the part of a declaration before its colon. -/
def names (objectClass t : Text) : Reading Declaration.Fault (List Identifier) := do
  let parts ← split ',' ((← stripWord objectClass t).getD t)
  ExceptT.mk (pure (parts.mapM Declaration.name))

/-! ### Ranges -/

/-- The range with the direction `d` in a text that has its keyword at the outer level. -/
def ofDirection? (t : Text) (d : Direction) :
    Except Misstep (Option (Except Range.Fault Range)) := do
  match ← findKeyword d.name t 0 with
  | none => return none
  | some i =>
    let left := (← t.sliceTo i).trim
    let right := (← t.sliceFrom (i + d.name.byteCount)).trim
    if left = [] || right = [] then return some (.error .missingBound)
    else return some (.ok ⟨.ofText left, .ofText right, d⟩)

/-- The range between a pair of numbers that a comma separates. -/
def ofPair? (t : Text) : Except Misstep (Option Range) := do
  match (← split ',' t).map Bound.ofText with
  | [.int l, .int r] => return some ⟨.int l, .int r, if r ≤ l then .down else .up⟩
  | _ => return none

/-- Reads a range. -/
def range (t : Text) : Reading Range.Fault Range := do
  let t := t.trim
  if t = [] then throw .empty
  else
    match ← ofDirection? t .down with
    | some r => ExceptT.mk (pure r)
    | none =>
      match ← ofDirection? t .up with
      | some r => ExceptT.mk (pure r)
      | none =>
        match ← ofPair? t with
        | some r => return r
        | none => throw .missingDirection

/-! ### Generics -/

/-- The generics of one declaration, or what is wrong with it. -/
def readGenerics (declaration : Text) : Reading Declaration.Fault (List Generic) := do
  let (before, rest) ← splitNames declaration
  let (type, default) ← splitDefault rest
  if type = [] then throw .missingType
  else
    let names ← names "constant" before
    return names.map fun n => ⟨n, type, default⟩

/-- The generics of one declaration. -/
def genericsOf (declaration : Text) : Reading Error (List Generic) :=
  (readGenerics declaration).adapt (.malformedGeneric declaration)

/-- The generics that the body of an entity declares, in order. -/
def generics (body : Text) : Reading Error (List Generic) := do
  match ← (clause? "generic" body).adapt (.malformedGeneric "generic") with
  | none => return []
  | some inside => return (← (← list inside).mapM genericsOf).flatten

/-! ### Ports -/

/-- The mode of a declaration, whose first port is `first`, and the offset of the rest of its
subtype. -/
def readMode (declaration first subtype : Text) : Reading Error (Mode × Nat) := do
  match ← nextWord subtype 0 with
  | none => throw (.malformedPort declaration .missingType)
  | some (word, behind) =>
    match Mode.ofName? word with
    | some m => return (m, behind)
    | none =>
      if (DataType.ofName? word).isSome then return (.input, 0)
      else if (← nextWord subtype behind).isSome then
        throw (.malformedPort declaration (.unknownMode word))
      else throw (.unsupportedType word first)

/-- The range in parentheses at an offset, if there is one, and the trimmed rest. -/
def readRange (declaration subtype : Text) (start : Nat) :
    Reading Error (Option Range × Text) := do
  if (← subtype.sliceFrom start).head? = some '(' then
    match ← findClosing subtype start with
    | none => throw (.malformedPort declaration .missingClose)
    | some closing =>
      let inside ← subtype.slice (start + 1) closing
      let r ← (range inside).adapt (.invalidRange declaration)
      return (some r, (← subtype.sliceFrom (closing + 1)).trim)
  else return (none, (← subtype.sliceFrom start).trim)

/-- Reads the subtype of a declaration, whose first port is `first`. -/
def readSubtype (declaration first subtype : Text) : Reading Error Port.Shape := do
  let (mode, start) ← readMode declaration first subtype
  match ← nextWord subtype start with
  | none => throw (.malformedPort declaration .missingType)
  | some (word, behind) =>
    match DataType.ofName? word with
    | none => throw (.unsupportedType word first)
    | some type =>
      let (range, tail) ← readRange declaration subtype (← skipBlanks subtype behind)
      if tail = [] then return ⟨mode, type, range⟩
      else if (← stripWord "range" tail).isSome then
        throw (.unsupportedType (← subtype.sliceFrom start).trim first)
      else throw (.malformedPort declaration (.trailingText tail))

/-- The ports of one declaration. -/
def portsOf (declaration : Text) : Reading Error (List Port) := do
  let (before, rest) ← (splitNames declaration).adapt (.malformedPort declaration)
  let names ← (names "signal" before).adapt (.malformedPort declaration)
  let first := (names.head?.map Identifier.text).getD []
  let (subtype, default) ← (splitDefault rest).adapt (.malformedPort declaration)
  let shape ← readSubtype declaration first subtype
  ExceptT.mk (pure (names.mapM fun n =>
    (Port.ofParts n shape.mode shape.type shape.range default).mapError
      (.invalidRange declaration)))

/-- The ports that the body of an entity declares, in order. -/
def ports (body : Text) : Reading Error (List Port) := do
  match ← (clause? "port" body).adapt (.malformedPort "port") with
  | none => return []
  | some inside => return (← (← list inside).mapM portsOf).flatten

/-! ### Entity declarations -/

/-- The name in the header that stands at an offset, and the offset behind the header. -/
def readHeader (t : Text) (start : Nat) : Except Misstep (Option (Text × Nat)) := do
  match ← nextWord t start with
  | none => return none
  | some (name, next) =>
    match ← nextWord t next with
    | none => return none
    | some (is, behind) => if is.sameWord "is" then return some (name, behind) else return none

/-- The name in the first header from an offset on, and the offset behind the header. -/
def nextHeader (t : Text) (start : Nat) : Except Misstep (Option (Text × Nat)) :=
  match _h : findKeyword "entity" t start with
  | .error m => .error m
  | .ok none => .ok none
  | .ok (some i) => do
    match ← readHeader t (i + Text.byteCount "entity") with
    | some header => return some header
    | none => nextHeader t (i + Text.byteCount "entity")
termination_by t.byteCount - start
decreasing_by
  have := bounds_of_findKeyword _h
  have : 0 < Text.byteCount "entity" := by decide
  omega

section

variable {t name : Text} {start i : Nat}

/-- A header ends in the text and behind the place from which on it is read. -/
theorem bounds_of_readHeader (h : readHeader t start = .ok (some (name, i))) :
  start < i ∧ i ≤ t.byteCount
  := by
  obtain ⟨first, found, h⟩ := bind_eq_ok.1 h
  cases first with
  | none => cases h
  | some first =>
    obtain ⟨second, found', h⟩ := bind_eq_ok.1 h
    cases second with
    | none => cases h
    | some second =>
      have bounds := bounds_of_nextWord found
      have bounds' := bounds_of_nextWord found'
      simp only at h
      split at h
      · obtain ⟨-, rfl⟩ := Prod.mk.inj (Option.some.inj (Except.ok.inj h))
        omega
      · cases h

theorem bounds_of_nextHeader (h : nextHeader t start = .ok (some (name, i))) :
  start < i ∧ i ≤ t.byteCount
  := by
  fun_induction nextHeader t start with
  | case1 => cases h
  | case2 => cases h
  | case3 start j found ih =>
    have bounds := bounds_of_findKeyword found
    obtain ⟨header, read, h⟩ := bind_eq_ok.1 h
    cases header with
    | none =>
      have := ih h
      omega
    | some header =>
      obtain rfl := Option.some.inj (Except.ok.inj h)
      have := bounds_of_readHeader read
      omega

end

/-- The number of headers from an offset on. -/
def countHeaders (t : Text) (start : Nat) : Except Misstep Nat :=
  match _h : nextHeader t start with
  | .error m => .error m
  | .ok none => .ok 0
  | .ok (some (_, behind)) => do return (← countHeaders t behind) + 1
termination_by t.byteCount - start
decreasing_by
  have := bounds_of_nextHeader _h
  omega

/-- The name in the closing part of a declaration, if it has one, and the offset behind it, where
the closing part goes on at an offset behind the word `end`. -/
def readClosing (t : Text) (start : Nat) : Except Misstep (Option Text × Nat) := do
  match ← nextWord t start with
  | none => return (none, start)
  | some (word, next) =>
    if word.sameWord "entity" then
      match ← nextWord t next with
      | none => return (none, next)
      | some (name, behind) => return (some name, behind)
    else return (some word, next)

/-- The one entity declaration of a source text. -/
def entityText (t : Text) : Reading Error EntityText := do
  match ← nextHeader t 0 with
  | none => throw .entityNotFound
  | some (name, start) =>
    match ← findKeyword "end" t start with
    | none => throw .entityNotFound
    | some stop =>
      let body ← t.slice start stop
      let (closing, behind) ← readClosing t (stop + Text.byteCount "end")
      match closing.filter fun c => !c.sameWord name with
      | some c => throw (.nameMismatch name c)
      | none =>
        let semicolon ← skipBlanks t behind
        if (← t.sliceFrom semicolon).head? = some ';' then
          match ← countHeaders t (semicolon + 1) with
          | 0 => return ⟨name, body.trim⟩
          | n => throw (.multipleEntities (n + 1))
        else throw .entityNotFound

/-- The entity that a source text declares. -/
def entity (t : Text) : Reading Error Entity := do
  let declared ← entityText (normalize t)
  let generics ← generics declared.body
  let ports ← ports declared.body
  ExceptT.mk (pure (Entity.ofParts declared.name generics ports))

end Testbench.Vhdl.Offset
