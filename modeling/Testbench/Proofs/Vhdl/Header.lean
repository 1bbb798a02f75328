import Testbench.Proofs.Nesting.Word
import Testbench.Proofs.Stage
import Testbench.Vhdl.Header

/-!
# Entity declarations as they are found

The body that `EntityText.ofSource` finds is a part of the source, and in a text that
consists of a header, a body without the word `end` at the outer level and a closing part,
it finds this body.  The search for a header passes over what lacks the word `entity`, and
the number of headers depends on the first one and on what is behind it.
-/

namespace Testbench.Vhdl

open Nesting

variable {s t w name body rest before : Text}

/-- What is left behind a word is the end of the text. -/
theorem isSuffix_of_nextWord? (h : nextWord? t = some (w, rest)) :
  rest <:+ t
  := by
  obtain ⟨-, -, b, -, rfl⟩ := nextWord?_eq_some_iff.1 h
  rw [← List.append_assoc]
  apply List.suffix_append

/-- The text before a word that is searched for is a start of the text, and the text behind
the word an end. -/
theorem isPrefix_of_splitWord? (h : splitWord? w t = some (before, rest)) :
  before <+: t ∧ rest <:+ t
  := by
  simp only [splitWord?, Option.map_eq_some_iff, Prod.exists, Prod.mk.injEq] at h
  obtain ⟨before, rest, found, rfl, rfl⟩ := h
  rw [← splitWhere_append found]
  use List.prefix_append before rest
  apply (List.drop_suffix w.length rest).trans (List.suffix_append before rest)

namespace EntityText

/-- What is left behind a header is the end of the text. -/
theorem isSuffix_of_readHeader? (h : readHeader? t = some (name, rest)) :
  rest <:+ t
  := by
  simp only [readHeader?, Option.bind_eq_bind, Option.bind_eq_some_iff, Prod.exists] at h
  obtain ⟨name', rest', first, is, rest'', second, h⟩ := h
  split at h
  · obtain ⟨rfl, rfl⟩ : name' = name ∧ rest'' = rest := by simpa using h
    apply (isSuffix_of_nextWord? second).trans (isSuffix_of_nextWord? first)
  · simp at h

theorem isSuffix_of_nextHeader? (h : nextHeader? t = some (name, rest)) :
  rest <:+ t
  := by
  fun_induction nextHeader? t with
  | case1 => simp at h
  | case2 t before behind found header read =>
    obtain rfl : header = (name, rest) := by simpa using h
    apply (isSuffix_of_readHeader? read).trans (isPrefix_of_splitWord? found).2
  | case3 t before behind found read ih =>
    apply (ih h).trans (isPrefix_of_splitWord? found).2

/-- The body of a declaration is a part of the source. -/
theorem isInfix_of_ofSource_eq_ok {e : EntityText} (h : ofSource t = .ok e) :
  e.body <:+: t
  := by
  rw [ofSource] at h
  split at h
  · next name behind header =>
    split at h
    · next body closing found =>
      have part : body.trim <:+: t := by
        apply (Text.isInfix_trim body).trans
        apply (isPrefix_of_splitWord? found).1.isInfix.trans
        apply (isSuffix_of_nextHeader? header).isInfix
      simp only at h
      split at h
      · simp at h
      · split at h
        · split at h
          · obtain rfl := (Except.ok.inj h).symm
            apply part
          · simp at h
        · simp at h
    · simp at h
  · simp at h

/-! ### Finding a declaration -/

theorem isWord_entity :
  IsWord "entity"
  := by
  use by decide, by decide

theorem isWord_end :
  IsWord "end"
  := by
  use by decide, by decide

/-- A header is read from a name and the word `is`, in any case. -/
theorem readHeader?_eq {a b is : Text} (ha : ∀ c ∈ a, isBlank c) (hname : IsWord name)
    (hb : IsGap b) (his : is.sameWord "is") (head : ¬rest.head?.any isWordChar) :
  readHeader? (a ++ (name ++ (b ++ (is ++ rest)))) = some (name, rest)
  := by
  have word : IsWord is := by
    apply IsWord.of_sameWord _ his
    use by decide, by decide
  have first : nextWord? (a ++ (name ++ (b ++ (is ++ rest)))) = some (name, b ++ (is ++ rest)) := by
    apply nextWord?_eq_some_iff.2 ⟨hname, hb.head _, a, ha, rfl⟩
  have second : nextWord? (b ++ (is ++ rest)) = some (is, rest) := by
    apply nextWord?_eq_some_iff.2 ⟨word, head, b, hb.forall_mem, rfl⟩
  rw [readHeader?, first]
  simp only [Option.bind_eq_bind, Option.bind_some]
  rw [second]
  simp only [Option.bind_some, his, if_true]

/-- The first header of a text stands behind the first word `entity`, or else it is the
first one in what follows this word. -/
theorem nextHeader?_eq (t : Text) :
  nextHeader? t =
    (splitWord? "entity" t).bind fun (_, rest) => (readHeader? rest).or (nextHeader? rest)
  := by
  rw [nextHeader?]
  split
  · next absent => rw [absent, Option.bind_none]
  · next found =>
    rw [found, Option.bind_some]
    simp only
    split
    · next read => rw [read, Option.some_or]
    · next read => rw [read, Option.none_or]

/-- Behind the word `entity` a header is read, or else searched for. -/
theorem nextHeader?_keyword_append (hw : w.sameWord "entity") (ht : ¬t.head?.any isWordChar) :
  nextHeader? (w ++ t) = (readHeader? t).or (nextHeader? t)
  := by
  have found : splitWord? "entity" (w ++ t) = some ([], t) := by
    apply (splitWord?_eq_some_iff isWord_entity).2
    use w, rfl, hw, trivial, rfl, by simp, ht
  rw [nextHeader?_eq, found, Option.bind_some]

/-- The search for a header passes over a part without the word `entity`. -/
theorem nextHeader?_append (lacks : LacksWord "entity" s) (ends : outer.after s = outer)
    (apart : Apart s t) :
  nextHeader? (s ++ t) = nextHeader? t
  := by
  rw [nextHeader?_eq, nextHeader?_eq t, splitWord?_append isWord_entity lacks ends apart,
    Option.bind_map]
  rfl

/-- How many headers a text has depends on its first one. -/
theorem countHeaders_congr (h : nextHeader? s = nextHeader? t) :
  countHeaders s = countHeaders t
  := by
  rw [countHeaders, countHeaders]
  split <;> split <;> simp_all

/-- A text without a first header has none. -/
theorem countHeaders_eq_zero (h : nextHeader? t = none) :
  countHeaders t = 0
  := by
  rw [countHeaders]
  split
  · rfl
  · next found =>
    rw [h] at found
    contradiction

/-- Behind its first header a text has all the others. -/
theorem countHeaders_eq_succ (h : nextHeader? t = some (name, rest)) :
  countHeaders t = countHeaders rest + 1
  := by
  rw [countHeaders]
  split
  · next absent =>
    rw [h] at absent
    contradiction
  · next again =>
    rw [h] at again
    obtain ⟨rfl, rfl⟩ := Prod.mk.inj (Option.some.inj again)
    rfl

/-- What is found in a text depends on its first header, the first word `end` behind it and
the closing part, and on how many headers follow the semicolon. -/
theorem ofSource_eq {closing : Option Text} {behind tail more : Text}
    (header : nextHeader? t = some (name, rest))
    (found : splitWord? "end" rest = some (body, behind))
    (read : readClosing behind = (closing, tail)) (start : tail.trimStart = ';' :: more) :
  ofSource t =
    match closing.filter fun c => !c.sameWord name with
    | some c => .error (.nameMismatch name c)
    | none =>
      if countHeaders more = 0 then .ok ⟨name, body.trim⟩
      else .error (.multipleEntities (countHeaders more + 1))
  := by
  rw [ofSource, header]
  simp only
  rw [found]
  simp only
  rw [read]
  simp only
  rw [start]
  cases closing.filter fun c => !c.sameWord name with
  | some c => rfl
  | none =>
    simp only
    split
    · next none => rw [if_pos none]
    · next ne => rw [if_neg ne]

/-- A declaration is found if its body does not hold the word `end` at the outer level. -/
theorem ofSource_eq_ok (hname : IsWord name) (head : ¬body.head?.any isWordChar)
    (hbody : Misses (isWordAt "end") outer none body []) (ends : outer.after body = outer) :
  ofSource ("entity " ++ (name ++ (" is" ++ (body ++ " end entity;")))) = .ok ⟨name, body.trim⟩
  := by
  have space : ¬isWordChar ' ' := by decide
  have blank : ∀ c ∈ [' '], isBlank c := by decide
  have header : nextHeader? ("entity " ++ (name ++ (" is" ++ (body ++ " end entity;")))) =
      some (name, body ++ " end entity;") := by
    have gap : IsGap [' '] := by
      use by decide, blank
    have first : ¬(body ++ " end entity;").head?.any isWordChar := by
      cases body with
      | nil => decide
      | cons c body => simpa using head
    have split : "entity " ++ (name ++ (" is" ++ (body ++ " end entity;"))) =
        "entity".toList ++
          ([' '] ++ (name ++ ([' '] ++ ("is".toList ++ (body ++ " end entity;"))))) :=
      rfl
    rw [split, nextHeader?_keyword_append (Text.sameWord_self "entity") (gap.head _),
      readHeader?_eq blank hname gap (Text.sameWord_self "is") first, Option.some_or]
  have closing : splitWord? "end" (body ++ " end entity;") =
      some (body ++ [' '], " entity;".toList) := by
    apply (splitWord?_eq_some_iff isWord_end).2
    refine ⟨"end", by simp, Text.sameWord_self _, ?_, ?_, by simpa using space, by decide⟩
    · rw [misses_append, misses_isWordAt_cons isWord_end space]
      refine ⟨(misses_isWordAt_append isWord_end (apart_cons space)).2 hbody, trivial⟩
    · rw [after_append, ends]
      rfl
  have trimmed : (body ++ [' ']).trim = body.trim := Text.trim_append_right blank
  have tail : readClosing " entity;" = (none, ";".toList) := by decide
  have start : Text.trimStart ";" = [';'] := by decide
  have none : countHeaders [] = 0 := countHeaders_eq_zero (by rw [nextHeader?_eq]; rfl)
  rw [ofSource_eq header closing tail start, Option.filter_none, if_pos none, trimmed]

end EntityText

end Testbench.Vhdl
