import Testbench.Toml.Lexeme

/-!
# Reading TOML

A TOML text is a list of statements, each on a line of its own: an entry, the header of a
table, or the header of an item of an array of tables.  `Toml.ofText?` reads the
statements and puts the entries into the tables that they belong to.  A table is defined
once, and a key is set once.  No more than 127 arrays and tables in braces may be inside
each other.
-/

namespace Testbench.Toml

/-! ### Values -/

/-- The text behind white space, line ends and comments. -/
def skipLines : (fuel : Nat) → Text → Text
  | 0, t => t
  | fuel + 1, t =>
    match t.dropWhile isSpace with
    | '#' :: r => skipLines fuel (r.dropWhile isPlain)
    | t =>
      match newLine? t with
      | some r => skipLines fuel r
      | none => t

/-- The entries of a table in braces with one more.  A key with dots makes the tables on
its way where they are missing, and adds to any that are there. -/
def addField? : (key : List Text) → Toml → Entries → Option Entries
  | [], _, _ => none
  | [k], v, entries => if (entries.get? k).isSome then none else some (entries.set k v)
  | k :: key, v, entries =>
    match entries.get? k with
    | none => do return entries.set k (table .inline (← addField? key v []))
    | some (table o inner) => do return entries.set k (table o (← addField? key v inner))
    | some _ => none

mutual

/-- A value in which up to `depth` arrays and tables are inside each other.  The number of
its parts is bounded by `fuel`. -/
def readValue? : (fuel depth : Nat) → Text → Option (Toml × Text)
  | 0, _, _ => none
  | fuel + 1, depth, t =>
    match depth, t with
    | 0, '[' :: _ => none
    | 0, '\x7b' :: _ => none
    | depth + 1, '[' :: r => (readItems? fuel depth r).map fun (items, rest) => (array items, rest)
    | depth + 1, '\x7b' :: r =>
      match r.dropWhile isSpace with
      | '\x7d' :: rest => some (table .inline [], rest)
      | r => (readFields? fuel depth [] r).map fun (entries, rest) => (table .inline entries, rest)
    | _, t =>
      if t.head? = some '"' ∨ t.head? = some '\'' then
        (readString? t).map fun (s, rest) => (string s, rest)
      else
        let (word, rest) := takeWord t
        (word? word).map (·, rest)

/-- The items of an array up to its end. -/
def readItems? : (fuel depth : Nat) → Text → Option (List Toml × Text)
  | 0, _, _ => none
  | fuel + 1, depth, t =>
    match skipLines t.length t with
    | ']' :: rest => some ([], rest)
    | t => do
      let (v, r) ← readValue? fuel depth t
      match skipLines r.length r with
      | ']' :: rest => some ([v], rest)
      | ',' :: r => (readItems? fuel depth r).map fun (vs, rest) => (v :: vs, rest)
      | _ => none

/-- The entries of a table in braces up to its end, behind those read before. -/
def readFields? : (fuel depth : Nat) → Entries → Text → Option (Entries × Text)
  | 0, _, _, _ => none
  | fuel + 1, depth, before, t => do
    let (key, r) ← readKey? t
    match r with
    | '=' :: r =>
      let (v, r) ← readValue? fuel depth (r.dropWhile isSpace)
      let entries ← addField? key v before
      match r.dropWhile isSpace with
      | '\x7d' :: rest => some (entries, rest)
      | ',' :: r => readFields? fuel depth entries r
      | _ => none
    | _ => none

end

/-! ### Statements -/

/-- A statement: an entry, the header of a table, or that of an item of an array. -/
inductive Statement where
  | entry (key : List Text) (v : Toml)
  | header (path : List Text)
  | item (path : List Text)

/-- An entry. -/
def readAssignment? (t : Text) : Option (Statement × Text) := do
  let (key, r) ← readKey? t
  match r with
  | '=' :: r =>
    let (v, rest) ← readValue? (r.length + 1) depthLimit (r.dropWhile isSpace)
    return (.entry key v, rest)
  | _ => none

/-- A header of an item, a header of a table, or an entry. -/
def readStatement? (t : Text) : Option (Statement × Text) :=
  match t with
  | '[' :: '[' :: r => do
    match ← readKey? r with
    | (path, ']' :: ']' :: rest) => return (.item path, rest)
    | _ => none
  | '[' :: r => do
    match ← readKey? r with
    | (path, ']' :: rest) => return (.header path, rest)
    | _ => none
  | t => readAssignment? t

/-- The text behind the end of a statement: white space, perhaps a comment, and the end of
the line or of the text. -/
def endLine? (t : Text) : Option Text :=
  let r := t.dropWhile isSpace
  let r := if r.head? = some '#' then r.dropWhile isPlain else r
  if r = [] then some [] else newLine? r

/-- The statements of a text. -/
def readStatements? : (fuel : Nat) → Text → Option (List Statement)
  | 0, _ => none
  | fuel + 1, t =>
    match skipLines t.length t with
    | [] => some []
    | t => do
      let (s, rest) ← readStatement? t
      let rest ← endLine? rest
      return s :: (← readStatements? fuel rest)

/-! ### Tables -/

/-- The entries with one more, whose key may have dots.  The tables on the way to the last
part are made where they are missing.  One that is there may be passed unless a header
has opened it, but the table that is added to must have come about by a key with dots. -/
def assign? : (key : List Text) → Toml → Entries → Option Entries
  | [], _, _ => none
  | [k], v, entries => if (entries.get? k).isSome then none else some (entries.set k v)
  | k :: k' :: key, v, entries =>
    match entries.get? k with
    | none => do return entries.set k (table .dotted (← assign? (k' :: key) v []))
    | some (table .dotted inner) => do
        return entries.set k (table .dotted (← assign? (k' :: key) v inner))
    | some (table .implicit inner) =>
        if key = [] then none
        else do return entries.set k (table .implicit (← assign? (k' :: key) v inner))
    | some (tables items) =>
        if key = [] then none
        else do
          let last ← items.getLast?
          return entries.set k (tables (items.dropLast ++ [← assign? (k' :: key) v last]))
    | some _ => none

/-- The entries in which `change` has been made in the table with a path.  Tables on the
way are made where they are missing, and of an array of tables the last one is meant. -/
def inTable? (change : Entries → Option Entries) : (path : List Text) → Entries →
    Option Entries
  | [], entries => change entries
  | k :: path, entries =>
    match entries.get? k with
    | none => do return entries.set k (table .implicit (← inTable? change path []))
    | some (table o inner) =>
        if o = .inline then none
        else do return entries.set k (table o (← inTable? change path inner))
    | some (tables items) => do
        let last ← items.getLast?
        return entries.set k (tables (items.dropLast ++ [← inTable? change path last]))
    | some _ => none

/-- The entries with a table that has a header of its own. -/
def openTable? (k : Text) (entries : Entries) : Option Entries :=
  match entries.get? k with
  | none => some (entries.set k (table .header []))
  | some (table .implicit inner) => some (entries.set k (table .header inner))
  | some _ => none

/-- The entries with one more item of an array of tables. -/
def openItem? (k : Text) (entries : Entries) : Option Entries :=
  match entries.get? k with
  | none => some (entries.set k (tables [[]]))
  | some (tables items) => some (entries.set k (tables (items ++ [[]])))
  | some _ => none

/-- The entries behind statements, where `current` is the path of the last header. -/
def runStatements? (current : List Text) (entries : Entries) :
    List Statement → Option Entries
  | [] => some entries
  | .entry key v :: r => do
      runStatements? current (← inTable? (assign? key v) current entries) r
  | .header path :: r => do
      let k ← path.getLast?
      runStatements? path (← inTable? (openTable? k) path.dropLast entries) r
  | .item path :: r => do
      let k ← path.getLast?
      runStatements? path (← inTable? (openItem? k) path.dropLast entries) r

/-- The entries of a TOML text; a byte order mark may stand in front. -/
def ofText? (t : Text) : Option Entries := do
  let t := if t.head? = some '\uFEFF' then t.tail else t
  runStatements? [] [] (← readStatements? (t.length + 1) t)

end Testbench.Toml
