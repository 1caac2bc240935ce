import Chip8.Json.Token

/-!
# Reading JSON values

A value is read token by token. The reader remembers the arrays and objects that are still open and
what may come next. A text is a value if its tokens take the reader to a single complete value.
-/

namespace Chip8.Json

/-- A key and its value. -/
abbrev Member := Option String × Value

/-- An array or an object that is still open, with a value of it being read. -/
inductive Frame where
  /-- An array with the items before the present one, the newest first. -/
  | item (items : List Value)
  /-- An object with the members before the present one, the newest first, and the present key. -/
  | member (members : List Member) (key : Option String)

/-- What a reader has read and what it expects. -/
inductive Reader where
  /-- A value must follow. -/
  | value (frames : List Frame)
  /-- An array was opened: its first item or its end must follow. -/
  | firstItem (frames : List Frame)
  /-- An object was opened: its first key or its end must follow. -/
  | firstKey (frames : List Frame)
  /-- A key must follow. -/
  | nextKey (frames : List Frame) (members : List Member)
  /-- The mark between a key and its value must follow. -/
  | colon (frames : List Frame) (members : List Member) (key : Option String)
  /-- An item is complete: another one or the end of the array must follow. -/
  | itemEnd (frames : List Frame) (items : List Value)
  /-- A member is complete: another one or the end of the object must follow. -/
  | memberEnd (frames : List Frame) (members : List Member)
  /-- The value is complete and nothing may follow. -/
  | complete (v : Value)

namespace Reader

/-- The reader after a value, which belongs to the innermost open array or object. -/
def deliver (v : Value) : List Frame → Reader
  | [] => complete v
  | .item items :: outer => itemEnd outer (v :: items)
  | .member members key :: outer => memberEnd outer ((key, v) :: members)

/-- The reader after the first token of a value. -/
def begin? (frames : List Frame) : Token → Option Reader
  | .scalar s => some (deliver (.scalar s) frames)
  | .openArray => some (firstItem frames)
  | .openObject => some (firstKey frames)
  | _ => none

/-- The reader after one more token. -/
def next? : Reader → Token → Option Reader
  | value frames, t => begin? frames t
  | firstItem frames, .closeArray => some (deliver (.array []) frames)
  | firstItem frames, t => begin? (.item [] :: frames) t
  | firstKey frames, .closeObject => some (deliver (.object []) frames)
  | firstKey frames, .scalar (.string k) => some (colon frames [] k)
  | nextKey frames members, .scalar (.string k) => some (colon frames members k)
  | colon frames members k, .colon => some (value (.member members k :: frames))
  | itemEnd frames items, .comma => some (value (.item items :: frames))
  | itemEnd frames items, .closeArray => some (deliver (.array items.reverse) frames)
  | memberEnd frames members, .comma => some (nextKey frames members)
  | memberEnd frames members, .closeObject => some (deliver (.object members.reverse) frames)
  | _, _ => none

end Reader

namespace Value

/-- The value that tokens write. -/
def ofTokens? (tokens : List Token) : Option Value :=
  match tokens.foldlM Reader.next? (.value []) with
  | some (.complete v) => some v
  | _ => none

/-- The value that a text writes. -/
def parse? (text : String) : Option Value :=
  (Token.scan text.toList).bind ofTokens?

end Value

end Chip8.Json
