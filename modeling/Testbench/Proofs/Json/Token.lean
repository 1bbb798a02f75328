import Testbench.Proofs.Json.String
import Mathlib.Data.List.Forall2

/-!
# Tokens of values

The tokens of a value without numbers are read from the text that `pretty` writes for it.
`Reads t ts` says that the tokens `ts` are read from `t`, whatever follows, so that texts can be
put behind one another.  The values are those of `Plain n`: without numbers, and with no more
than `n` arrays and objects within one another.
-/

namespace Testbench.Json

/-- The value holds no number, and no more than `n` arrays and objects are within one
another. -/
inductive Plain : Nat → Json → Prop where
  | null {n : Nat} : Plain n null
  | bool {n : Nat} (b : Bool) : Plain n (bool b)
  | string {n : Nat} (t : Text) : Plain n (string t)
  | array {n : Nat} {items : List Json} (h : ∀ v ∈ items, Plain n v) : Plain (n + 1) (array items)
  | object {n : Nat} {members : List (Text × Json)} (h : ∀ m ∈ members, Plain n m.2) :
      Plain (n + 1) (object members)

mutual

/-- The tokens of a value. -/
def tokens : Json → List Token
  | null => [.literal null]
  | bool b => [.literal (bool b)]
  | number t => [.literal (number t)]
  | string t => [.string t]
  | array items => .openArray :: (List.intercalate [.comma] (itemTokens items) ++ [.closeArray])
  | object members =>
      .openObject :: (List.intercalate [.comma] (memberTokens members) ++ [.closeObject])

/-- The tokens of each item of an array. -/
def itemTokens : List Json → List (List Token)
  | [] => []
  | v :: r => tokens v :: itemTokens r

/-- The tokens of each member of an object. -/
def memberTokens : List (Text × Json) → List (List Token)
  | [] => []
  | (k, v) :: r => (.string k :: .colon :: tokens v) :: memberTokens r

end

namespace Token

variable {s t w r : Text} {k : Token} {ks ls : List Token}

/-- The tokens `ks` are read from the text `t`, whatever follows it. -/
structure Reads (t : Text) (ks : List Token) : Prop where
  length_le : ks.length ≤ t.length
  readAll : ∀ fuel r, readAll? (fuel + ks.length) (t ++ r) = (readAll? fuel r).map (ks ++ ·)

namespace Reads

theorem nil :
  Reads [] []
  := by
  constructor
  · apply Nat.le_refl
  · intro fuel r
    simp

/-- Texts behind one another are read one by one. -/
theorem append (hs : Reads s ks) (ht : Reads t ls) :
  Reads (s ++ t) (ks ++ ls)
  := by
  constructor
  · have first := hs.length_le
    have second := ht.length_le
    simp only [List.length_append]
    omega
  · intro fuel r
    rw [List.length_append, Nat.add_comm ks.length, ← Nat.add_assoc, List.append_assoc, hs.readAll,
      ht.readAll, Option.map_map]
    congr 1
    funext ms
    simp

/-- White space is passed over. -/
theorem space (hw : ∀ c ∈ w, isSpace c) :
  Reads w []
  := by
  constructor
  · apply Nat.zero_le
  · intro fuel r
    have same : (w ++ r).dropWhile isSpace = r.dropWhile isSpace :=
      List.dropWhile_append_of_pos hw
    cases fuel with
    | zero => simp [readAll?, same]
    | succ fuel => simp [readAll?, same]

/-- A text is read as one token if `read?` reads it. -/
theorem token (hs : ∀ c ∈ t.head?, ¬isSpace c) (ne : t ≠ [])
    (h : ∀ r, read? (t ++ r) = some (k, r)) :
  Reads t [k]
  := by
  cases t with
  | nil => contradiction
  | cons c t =>
    constructor
    · simp
    · intro fuel r
      have stays : (c :: t ++ r).dropWhile isSpace = c :: t ++ r :=
        List.dropWhile_cons_of_neg (hs c rfl)
      rw [List.length_singleton, readAll?, stays]
      simp only [List.cons_append]
      rw [← List.cons_append, h r]
      simp only [Option.bind_eq_bind, Option.bind_some]
      cases readAll? fuel r <;> rfl

/-- A string is read as it is written. -/
theorem quotedString (t : Text) :
  Reads (Json.quotedString t) [.string t]
  := by
  have shape : Json.quotedString t = '"' :: (t.flatMap escapedChar ++ ['"']) := rfl
  rw [shape]
  apply token
  · simp [isSpace]
  · simp
  · intro r
    have : '"' :: (t.flatMap escapedChar ++ ['"']) ++ r =
        '"' :: (t.flatMap escapedChar ++ '"' :: r) := by simp
    rw [this, read?, readString?_escaped]
    rfl

/-- A mark is read as its token. -/
theorem mark {c : Char} (hc : ¬isSpace c) (h : ∀ r, read? (c :: r) = some (k, r)) :
  Reads [c] [k]
  := by
  apply token
  · simpa using hc
  · simp
  · apply h

theorem newLine (level : Nat) :
  Reads (Json.newLine level) []
  := by
  apply space
  intro c hc
  rcases List.mem_cons.1 hc with rfl | hc
  · rfl
  · rw [Text.eq_space_of_mem_spaces hc]
    rfl

/-- Texts with a separator between them are read as their tokens with its token between
them. -/
theorem join {texts : List Text} {lists : List (List Token)} (hs : Reads s [k])
    (h : List.Forall₂ Reads texts lists) :
  Reads (Text.join s texts) (List.intercalate [k] lists)
  := by
  induction h with
  | nil => apply nil
  | @cons t ks texts lists here rest ih =>
    cases rest with
    | nil =>
      rw [Text.join, List.intercalate_singleton, List.intercalate_singleton]
      apply here
    | cons _ _ =>
      rw [Text.join, List.intercalate_cons_cons, List.intercalate_cons_cons]
      apply (here.append hs).append ih

/-- Items between brackets are read as their tokens with commas between the tokens of the
brackets. -/
theorem bracketed {opening closing : Char} {o c : Token} {level : Nat} {texts : List Text}
    {lists : List (List Token)} (ho : Reads [opening] [o]) (hc : Reads [closing] [c])
    (h : List.Forall₂ Reads texts lists) :
  Reads (Json.bracketed opening closing level texts)
    (o :: (List.intercalate [.comma] lists ++ [c]))
  := by
  have comma : Reads (',' :: Json.newLine (level + 1)) [.comma] :=
    (mark (k := .comma) (by decide) fun r => rfl).append (newLine (level + 1))
  rw [Json.bracketed.eq_def]
  split
  · rw [List.forall₂_nil_left_iff] at h
    rw [h]
    apply ho.append hc
  · have inner := (newLine (level + 1)).append ((comma.join h).append (newLine level))
    have := ho.append (inner.append hc)
    simpa using this

end Reads

end Token

/-! ### Values -/

theorem prettyItems_eq (level : Nat) (items : List Json) :
  prettyItems level items = items.map (prettyAt level)
  := by
  induction items with
  | nil => rfl
  | cons v r ih => rw [prettyItems, ih, List.map_cons]

theorem itemTokens_eq (items : List Json) :
  itemTokens items = items.map tokens
  := by
  induction items with
  | nil => rfl
  | cons v r ih => rw [itemTokens, ih, List.map_cons]

theorem prettyMembers_eq (level : Nat) (members : List (Text × Json)) :
  prettyMembers level members =
    members.map fun (k, v) => quotedString k ++ ": " ++ prettyAt level v
  := by
  induction members with
  | nil => rfl
  | cons m r ih => rw [prettyMembers, ih, List.map_cons]

theorem memberTokens_eq (members : List (Text × Json)) :
  memberTokens members = members.map fun (k, v) => .string k :: .colon :: tokens v
  := by
  induction members with
  | nil => rfl
  | cons m r ih => rw [memberTokens, ih, List.map_cons]

/-- The tokens of a value are read from its text. -/
theorem Plain.reads {n : Nat} {v : Json} (h : Plain n v) (level : Nat) :
  Token.Reads (prettyAt level v) (tokens v)
  := by
  have mark : ∀ {c : Char} {k : Token}, ¬Token.isSpace c →
      (∀ r, Token.read? (c :: r) = some (k, r)) → Token.Reads [c] [k] :=
    fun hc h => Token.Reads.mark hc h
  induction h generalizing level with
  | null =>
    rw [prettyAt, tokens]
    apply Token.Reads.token (by decide) (by decide) fun r => rfl
  | bool b =>
    rw [prettyAt, tokens]
    cases b
    · apply Token.Reads.token (by decide) (by decide) fun r => rfl
    · apply Token.Reads.token (by decide) (by decide) fun r => rfl
  | string t =>
    rw [prettyAt, tokens]
    apply Token.Reads.quotedString
  | array _ ih =>
    rw [prettyAt, tokens, prettyItems_eq, itemTokens_eq]
    apply Token.Reads.bracketed (mark (by decide) fun r => rfl) (mark (by decide) fun r => rfl)
    rw [List.forall₂_map_left_iff, List.forall₂_map_right_iff, List.forall₂_same]
    intro v hv
    apply ih v hv
  | object _ ih =>
    rw [prettyAt, tokens, prettyMembers_eq, memberTokens_eq]
    apply Token.Reads.bracketed (mark (by decide) fun r => rfl) (mark (by decide) fun r => rfl)
    rw [List.forall₂_map_left_iff, List.forall₂_map_right_iff, List.forall₂_same]
    rintro ⟨k, v⟩ hv
    have colon : Token.Reads [':'] [.colon] := mark (by decide) fun r => rfl
    have space : Token.Reads [' '] [] := Token.Reads.space (by decide)
    have := (Token.Reads.quotedString k).append
      (colon.append (space.append (ih (k, v) hv (level + 1))))
    simpa using this

end Testbench.Json
