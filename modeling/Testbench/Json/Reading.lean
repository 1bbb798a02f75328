import Testbench.Json.Token

/-!
# Reading JSON

`Json.ofText?` reads a value from its tokens, one after the other.  A `Reader` holds the
arrays and objects that are open and knows what may come next; each token moves it on or
is refused.  No more than 127 arrays and objects may be open at a time.
-/

namespace Testbench.Json

/-- An open array, or an open object behind a key, with what it holds so far in reverse
order. -/
inductive Frame where
  | array (before : List Json)
  | object (before : List (Text × Json)) (key : Text)

/-- What a reader expects inside the open arrays and objects: a value; the first item or
the end of an array; the first key or the end of an object; a further key; a colon; a
comma or the end behind an item or a member; or nothing more. -/
inductive Reader where
  | value (frames : List Frame)
  | firstItem (frames : List Frame)
  | firstKey (frames : List Frame)
  | key (before : List (Text × Json)) (frames : List Frame)
  | colon (before : List (Text × Json)) (key : Text) (frames : List Frame)
  | afterItem (before : List Json) (frames : List Frame)
  | afterMember (before : List (Text × Json)) (frames : List Frame)
  | finished (v : Json)

namespace Reader

/-- The greatest number of arrays and objects that may be open. -/
def depthLimit : Nat := 127

/-- The reader behind a complete value. -/
def complete (v : Json) : List Frame → Reader
  | [] => finished v
  | .array before :: frames => afterItem (v :: before) frames
  | .object before k :: frames => afterMember ((k, v) :: before) frames

/-- The reader behind the first token of a value. -/
def beginValue? (frames : List Frame) : Token → Option Reader
  | .literal v => some (complete v frames)
  | .string t => some (complete (.string t) frames)
  | .openArray => if frames.length < depthLimit then some (firstItem frames) else none
  | .openObject => if frames.length < depthLimit then some (firstKey frames) else none
  | _ => none

/-- The reader behind one more token. -/
def step? : Reader → Token → Option Reader
  | value frames, t => beginValue? frames t
  | firstItem frames, .closeArray => some (complete (.array []) frames)
  | firstItem frames, t => beginValue? (.array [] :: frames) t
  | firstKey frames, .closeObject => some (complete (.object []) frames)
  | firstKey frames, .string k => some (colon [] k frames)
  | key before frames, .string k => some (colon before k frames)
  | colon before k frames, .colon => some (value (.object before k :: frames))
  | afterItem before frames, .comma => some (value (.array before :: frames))
  | afterItem before frames, .closeArray => some (complete (.array before.reverse) frames)
  | afterMember before frames, .comma => some (key before frames)
  | afterMember before frames, .closeObject => some (complete (.object before.reverse) frames)
  | _, _ => none

/-- The value that a reader has read, if it expects nothing more. -/
def result? : Reader → Option Json
  | finished v => some v
  | _ => none

end Reader

/-- Reads a JSON text. -/
def ofText? (t : Text) : Option Json := do
  let tokens ← Token.ofText? t
  let reader ← tokens.foldlM Reader.step? (.value [])
  reader.result?

end Testbench.Json
