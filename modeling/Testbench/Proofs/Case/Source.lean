import Testbench.Proofs.Case.Declaration
import Testbench.Proofs.Vhdl.Entity
import Testbench.Vhdl.Source

/-!
# Reading in either case

Generics, ports and entities have a lower case form, in which their names, types, expressions
and defaults are put into lower case and everything else is kept.  A source in lower case is
read as the lower case form of the entity that the source declares, or it is refused with an
error of the same kind.
-/

namespace Testbench.Vhdl

open Text

/-- Two errors are alike when they are of the same kind. -/
def Error.Alike (a b : Error) : Prop := a.kind = b.kind

/-- The declarations in the inside of a clause are read in agreement, up to the form in lower case
of what they declare. -/
theorem Declaration.mapM_list_lower {α : Type} {form : α → α} {read : Text → Except Error (List α)}
    (h : ∀ t, Agree Error.Alike (fun a b => a = b.map form) (read (Text.lower t)) (read t))
    (inside : Text) :
  Agree Error.Alike (fun a b => a = b.map form)
    ((list (Text.lower inside)).mapM read >>= fun lists => .ok lists.flatten)
    ((list inside).mapM read >>= fun lists => .ok lists.flatten)
  := by
  rw [list_lower]
  apply (Agree.mapM_map (h := List.map form) h _).bind
  rintro _ lists rfl
  apply Agree.ok
  rw [List.map_flatten]

/-! ### Generics -/

namespace Generic

/-- The generic with its texts in lower case. -/
def lower (g : Generic) : Generic := ⟨g.name.lower, g.type.lower, g.default.map Text.lower⟩

theorem splitType_lower (t : Text) :
  splitType (Text.lower t) = (splitType t).map (Prod.map Text.lower (Option.map Text.lower))
  := by
  rw [splitType, splitType, Declaration.splitDefault_lower]
  cases Declaration.splitDefault t with
  | error f => rfl
  | ok parts =>
    obtain ⟨type, default⟩ := parts
    simp only [Except.map, bind, Except.bind, Prod.map, lower_eq_nil_iff]
    split <;> rfl

/-- A declaration in lower case declares the same generics in lower case. -/
theorem ofDeclaration_lower (declaration : Text) :
  Agree (fun _ _ => True) (fun a b => a = b.map lower)
    (ofDeclaration (Text.lower declaration)) (ofDeclaration declaration)
  := by
  rw [ofDeclaration, ofDeclaration, Declaration.splitNames_lower]
  cases Declaration.splitNames declaration with
  | error f => apply Agree.error trivial
  | ok parts =>
    simp only [Except.map, Prod.map, bind, Except.bind, splitType_lower]
    cases splitType parts.2 with
    | error f => apply Agree.error trivial
    | ok shape =>
      apply Agree.bind (Declaration.names_lower _ _)
      rintro _ names rfl
      apply Agree.ok
      rw [List.map_map, List.map_map]
      rfl

theorem ofBody_lower (body : Text) :
  Agree Error.Alike (fun a b => a = b.map lower) (ofBody (Text.lower body)) (ofBody body)
  := by
  rw [ofBody, ofBody, Declaration.clause?_lower]
  cases Declaration.clause? "generic" body with
  | error f => exact Agree.error rfl
  | ok clause =>
    cases clause with
    | none => exact Agree.ok rfl
    | some inside =>
      apply Declaration.mapM_list_lower _ inside
      intro declaration
      apply (ofDeclaration_lower declaration).mapError
      intros
      rfl

end Generic

/-! ### Ports -/

theorem Mode.ofName?_lower (t : Text) :
  ofName? t.lower = ofName? t
  := by
  rw [ofName?, ofName?, lower_lower]

theorem DataType.ofName?_lower (t : Text) :
  ofName? t.lower = ofName? t
  := by
  rw [ofName?, ofName?, lower_lower]

namespace Port

/-- The port with its texts in lower case. -/
def lower (p : Port) : Port :=
  ⟨p.name.lower, p.mode, p.type, p.range.map Range.lower, p.default.map Text.lower,
    (Option.isSome_map).trans p.range_isSome⟩

theorem ofParts_lower (name : Identifier) (mode : Mode) (type : DataType)
    (range : Option Range) (default : Option Text) :
  ofParts name.lower mode type (range.map Range.lower) (default.map Text.lower) =
    (ofParts name mode type range default).map lower
  := by
  rw [ofParts, ofParts]
  simp only [Option.isSome_map]
  split <;> rfl

/-- The shape with its range in lower case. -/
def Shape.lower (s : Shape) : Shape := ⟨s.mode, s.type, s.range.map Range.lower⟩

variable {declaration declaration' first first' : Text}

theorem readMode_lower (subtype : Text) :
  Agree Error.Alike (fun a b => a = Prod.map id Text.lower b)
    (readMode declaration' first' (Text.lower subtype)) (readMode declaration first subtype)
  := by
  rw [readMode, readMode, nextWord?_lower]
  cases nextWord? subtype with
  | none => exact Agree.error rfl
  | some parts =>
    obtain ⟨word, rest⟩ := parts
    simp only [Option.map_some, Prod.map, Mode.ofName?_lower, DataType.ofName?_lower,
      nextWord?_lower, Option.isSome_map]
    split
    · exact Agree.ok rfl
    · split
      · exact Agree.ok rfl
      · split <;> exact Agree.error rfl

theorem readRange_lower (t : Text) :
  Agree Error.Alike (fun a b => a = Prod.map (Option.map Range.lower) Text.lower b)
    (readRange declaration' (Text.lower t)) (readRange declaration t)
  := by
  have opening : IsMark '(' := by decide
  obtain ⟨inside, rfl, eq⟩ | ⟨other, other'⟩ := lower_cases_mark opening t
  · rw [eq, readRange, readRange, splitClosing?_lower]
    cases splitClosing? inside with
    | none => exact Agree.error rfl
    | some parts =>
      simp only [Option.map_some, Prod.map, Range.ofText_lower]
      cases Range.ofText parts.1 with
      | error f => exact Agree.error rfl
      | ok r => exact Agree.ok rfl
  · rw [readRange, readRange]
    · exact Agree.ok rfl
    · apply other
    · apply other'

/-- A subtype in lower case is read as the same shape in lower case. -/
theorem readSubtype_lower (subtype : Text) :
  Agree Error.Alike (fun a b => a = b.lower)
    (readSubtype declaration' first' (Text.lower subtype))
    (readSubtype declaration first subtype)
  := by
  rw [readSubtype, readSubtype]
  apply Agree.bind (readMode_lower subtype)
  rintro _ ⟨mode, indication⟩ rfl
  simp only [Prod.map, nextWord?_lower]
  cases nextWord? indication with
  | none => exact Agree.error rfl
  | some parts =>
    simp only [Option.map_some, Prod.map, DataType.ofName?_lower]
    split
    · exact Agree.error rfl
    · next type found =>
      rw [trimStart_lower]
      apply Agree.bind (readRange_lower _)
      rintro _ ⟨range, tail⟩ rfl
      simp only [Prod.map, trim_lower, lower_eq_nil_iff, stripWord?_lower, Option.isSome_map]
      split
      · exact Agree.ok rfl
      · split <;> exact Agree.error rfl

/-- A declaration in lower case declares the same ports in lower case. -/
theorem ofDeclaration_lower (declaration : Text) :
  Agree Error.Alike (fun a b => a = b.map lower)
    (ofDeclaration (Text.lower declaration)) (ofDeclaration declaration)
  := by
  rw [ofDeclaration, ofDeclaration, Declaration.splitNames_lower]
  cases Declaration.splitNames declaration with
  | error f => exact Agree.error rfl
  | ok parts =>
    simp only [Except.map, Except.mapError, Prod.map, bind, Except.bind,
      Declaration.splitDefault_lower]
    apply Agree.bind
    · apply (Declaration.names_lower _ _).mapError
      intros
      rfl
    · rintro _ names rfl
      cases Declaration.splitDefault parts.2 with
      | error f => exact Agree.error rfl
      | ok rest =>
        apply Agree.bind (readSubtype_lower _)
        rintro _ shape rfl
        apply Agree.mapM_map
        intro name
        simp only [Shape.lower, ofParts_lower]
        cases ofParts name shape.mode shape.type shape.range rest.2 with
        | error f => exact Agree.error rfl
        | ok p => exact Agree.ok rfl

theorem ofBody_lower (body : Text) :
  Agree Error.Alike (fun a b => a = b.map lower) (ofBody (Text.lower body)) (ofBody body)
  := by
  rw [ofBody, ofBody, Declaration.clause?_lower]
  cases Declaration.clause? "port" body with
  | error f => exact Agree.error rfl
  | ok clause =>
    cases clause with
    | none => exact Agree.ok rfl
    | some inside => apply Declaration.mapM_list_lower ofDeclaration_lower inside

end Port

/-! ### Entity declarations -/

namespace EntityText

/-- The name and the body in lower case. -/
def lower (e : EntityText) : EntityText := ⟨e.name.lower, e.body.lower⟩

theorem readHeader?_lower (t : Text) :
  readHeader? (Text.lower t) = (readHeader? t).map (Prod.map Text.lower Text.lower)
  := by
  rw [readHeader?, readHeader?, nextWord?_lower]
  cases nextWord? t with
  | none => rfl
  | some first =>
    simp only [Option.map_some, Option.bind_eq_bind, Option.bind_some, Prod.map, nextWord?_lower]
    cases nextWord? first.2 with
    | none => rfl
    | some second =>
      simp only [Option.map_some, Option.bind_some, Prod.map, sameWord_lower]
      split <;> rfl

theorem nextHeader?_lower (t : Text) :
  nextHeader? (Text.lower t) = (nextHeader? t).map (Prod.map Text.lower Text.lower)
  := by
  fun_induction nextHeader? t with
  | case1 t missing =>
    rw [nextHeader?]
    split
    · rfl
    · next found =>
      rw [splitWord?_lower, missing] at found
      contradiction
  | case2 t before rest found header read =>
    rw [nextHeader?]
    split
    · next missing =>
      rw [splitWord?_lower, found] at missing
      contradiction
    · next found' =>
      rw [splitWord?_lower, found] at found'
      cases found'
      rw [readHeader?_lower, read]
      rfl
  | case3 t before rest found read ih =>
    rw [nextHeader?]
    split
    · next missing =>
      rw [splitWord?_lower, found] at missing
      contradiction
    · next found' =>
      rw [splitWord?_lower, found] at found'
      cases found'
      rw [readHeader?_lower, read]
      apply ih

theorem countHeaders_lower (t : Text) :
  countHeaders (Text.lower t) = countHeaders t
  := by
  fun_induction countHeaders t with
  | case1 t missing =>
    rw [countHeaders]
    split
    · rfl
    · next found =>
      rw [nextHeader?_lower, missing] at found
      contradiction
  | case2 t name rest found ih =>
    rw [countHeaders]
    split
    · next missing =>
      rw [nextHeader?_lower, found] at missing
      contradiction
    · next found' =>
      rw [nextHeader?_lower, found] at found'
      cases found'
      rw [ih]

theorem readClosing_lower (t : Text) :
  readClosing (Text.lower t) = Prod.map (Option.map Text.lower) Text.lower (readClosing t)
  := by
  rw [readClosing, readClosing, nextWord?_lower]
  cases nextWord? t with
  | none => rfl
  | some first =>
    simp only [Option.map_some, Prod.map, sameWord_lower, nextWord?_lower]
    split
    · cases nextWord? first.2 <;> rfl
    · rfl

/-- The declaration in a source in lower case is the declaration in lower case. -/
theorem ofSource_lower (t : Text) :
  Agree Error.Alike (fun a b => a = b.lower) (ofSource (Text.lower t)) (ofSource t)
  := by
  have semicolon : IsMark ';' := by decide
  rw [ofSource, ofSource, nextHeader?_lower]
  cases nextHeader? t with
  | none => exact Agree.error rfl
  | some header =>
    simp only [Option.map_some, Prod.map, splitWord?_lower]
    cases splitWord? "end" header.2 with
    | none => exact Agree.error rfl
    | some parts =>
      have mismatch : (((readClosing parts.2).1.map Text.lower).filter
          fun c => !c.sameWord (Text.lower header.1)) =
          ((readClosing parts.2).1.filter fun c => !c.sameWord header.1).map Text.lower := by
        rw [Option.filter_map]
        simp only [Function.comp_def, sameWord_lower, sameWord_lower_right]
      simp only [Option.map_some, Prod.map, readClosing_lower, mismatch, trimStart_lower]
      cases (readClosing parts.2).1.filter fun c => !c.sameWord header.1 with
      | some c => exact Agree.error rfl
      | none =>
        simp only [Option.map_none]
        obtain ⟨rest, eq, eq'⟩ | ⟨other, other'⟩ :=
          lower_cases_mark semicolon (readClosing parts.2).2.trimStart
        · rw [eq', eq]
          simp only [countHeaders_lower, trim_lower]
          split
          · exact Agree.ok rfl
          · exact Agree.error rfl
        · split
          · next eq => cases other' _ eq
          · exact Agree.error rfl

end EntityText

/-! ### Entities -/

@[simp]
theorem Identifier.same_lower (a b : Identifier) :
  a.lower.same b.lower = a.same b
  := by
  rw [Identifier.same, Identifier.same, Identifier.key_lower, Identifier.key_lower]

@[simp]
theorem Identifier.hash_lower (i : Identifier) :
  i.lower.hash = i.hash
  := by
  rw [Identifier.hash, Identifier.hash, Identifier.key_lower]

theorem firstRepeatedFrom?_lower (seen names : List Identifier) :
  firstRepeatedFrom? Identifier.hash (seen.map Identifier.lower) (names.map Identifier.lower) =
    (firstRepeatedFrom? Identifier.hash seen names).map Identifier.lower
  := by
  induction names generalizing seen with
  | nil => rfl
  | cons n names ih =>
    have known : isSeen Identifier.hash (seen.map Identifier.lower) n.lower =
        isSeen Identifier.hash seen n := by
      simp [isSeen, Function.comp_def]
    rw [List.map_cons, firstRepeatedFrom?, firstRepeatedFrom?, known, ← List.map_cons, ih]
    split <;> rfl

theorem firstRepeated?_lower (names : List Identifier) :
  firstRepeated? (names.map Identifier.lower) = (firstRepeated? names).map Identifier.lower
  := firstRepeatedFrom?_lower [] names

namespace Entity

/-- The entity with its texts in lower case. -/
def lower (e : Entity) : Entity where
  name := e.name.lower
  generics := e.generics.map Generic.lower
  ports := e.ports.map Port.lower
  generics_distinct := by
    simpa [Function.comp_def, Generic.lower] using e.generics_distinct
  ports_distinct := by
    simpa [Function.comp_def, Port.lower] using e.ports_distinct

theorem ofLists_lower (name : Identifier) (generics : List Generic) (ports : List Port) :
  Agree Error.Alike (fun a b => a = b.lower)
    (ofLists name.lower (generics.map Generic.lower) (ports.map Port.lower))
    (ofLists name generics ports)
  := by
  have genericNames : (generics.map Generic.lower).map (·.name) =
      (generics.map (·.name)).map Identifier.lower := by
    rw [List.map_map, List.map_map]
    rfl
  have portNames : (ports.map Port.lower).map (·.name) =
      (ports.map (·.name)).map Identifier.lower := by
    rw [List.map_map, List.map_map]
    rfl
  have repeatedGeneric := firstRepeated?_lower (generics.map (·.name))
  have repeatedPort := firstRepeated?_lower (ports.map (·.name))
  rw [← genericNames] at repeatedGeneric
  rw [← portNames] at repeatedPort
  cases hg : firstRepeated? (generics.map (·.name)) with
  | some n =>
    rw [hg] at repeatedGeneric
    rw [ofLists_of_repeatedGeneric hg, ofLists_of_repeatedGeneric repeatedGeneric]
    exact Agree.error rfl
  | none =>
    rw [hg] at repeatedGeneric
    cases hp : firstRepeated? (ports.map (·.name)) with
    | some n =>
      rw [hp] at repeatedPort
      rw [ofLists_of_repeatedPort hg hp, ofLists_of_repeatedPort repeatedGeneric repeatedPort]
      exact Agree.error rfl
    | none =>
      obtain ⟨e, made⟩ := exists_ofLists_eq_ok name hg hp
      obtain ⟨rfl, rfl, rfl⟩ := ofLists_eq_ok_iff.1 made
      have madeLower : ofLists e.name.lower (e.generics.map Generic.lower)
          (e.ports.map Port.lower) = .ok e.lower := ofLists_eq_ok_iff.2 ⟨rfl, rfl, rfl⟩
      rw [made, madeLower]
      exact Agree.ok rfl

theorem ofParts_lower (name : Text) (generics : List Generic) (ports : List Port) :
  Agree Error.Alike (fun a b => a = b.lower)
    (ofParts name.lower (generics.map Generic.lower) (ports.map Port.lower))
    (ofParts name generics ports)
  := by
  rw [ofParts, ofParts, Identifier.ofText_lower]
  cases Identifier.ofText name with
  | error f => exact Agree.error rfl
  | ok name => apply ofLists_lower

/-- A source in lower case declares the same entity in lower case. -/
theorem ofSource_lower (t : Text) :
  Agree Error.Alike (fun a b => a = b.lower) (ofSource t.lower) (ofSource t)
  := by
  rw [ofSource, ofSource, normalize_lower]
  apply Agree.bind (EntityText.ofSource_lower _)
  rintro _ declared rfl
  apply Agree.bind (Generic.ofBody_lower _)
  rintro _ generics rfl
  apply Agree.bind (Port.ofBody_lower _)
  rintro _ ports rfl
  apply ofParts_lower

end Entity

end Testbench.Vhdl
