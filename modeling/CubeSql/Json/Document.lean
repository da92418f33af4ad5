import CubeSql.Document.Node
import CubeSql.Json.Token

/-!
# JSON documents

A JSON text is read by one pass over its tokens, with the lists and records that are still open on a
stack. Where a token does not fit, everything still open ends there in `Node.torn`. A list or record with
more than `depthLimit` others around it can only be skipped.
-/

namespace CubeSql.Json

/-- The greatest number of lists and records that may stand inside one another. -/
def depthLimit : Nat := 127

/-- A list or record that is still open, its parts in reverse order. -/
inductive Frame where
  /-- A list. -/
  | list (items : List Node)
  /-- A record before a key or at its end. -/
  | record (members : List (Node × Node))
  /-- A record after a key. -/
  | member (members : List (Node × Node)) (key : Node)
deriving Inhabited

/-- What may come next. -/
inductive Expectation where
  /-- A value. -/
  | value
  /-- A value, or the end of the list just opened. -/
  | valueOrEnd
  /-- A key. -/
  | key
  /-- A key, or the end of the record just opened. -/
  | keyOrEnd
  /-- The colon after a key. -/
  | colon
  /-- A comma, or the end of the list or record around. -/
  | commaOrEnd
deriving DecidableEq, Repr, Inhabited

/-- How far a text has been read. -/
inductive Progress where
  /-- Something is still open or nothing has come yet: the open frames, innermost first. -/
  | reading (frames : List Frame) (next : Expectation)
  /-- One value has been read, and nothing after it. -/
  | done (root : Node)
  /-- The text is not well formed after `root`, which is torn where it breaks off inside. -/
  | failed (root : Node)
deriving Inhabited

/-- A closed list or record, which can only be skipped if too many others stand around it. -/
def sealed (node : Node) (around : Nat) : Node := if around < depthLimit then node else .void

/-- Puts a part into the innermost frame as its last part, and closes all frames around it. -/
def tearInto (part : Node) : List Frame → Node
  | [] => part
  | frame :: frames =>
    let broken : Node :=
      if frames.length < depthLimit then
        match frame with
        | .list items => .list (part :: items).reverse
        | .record members => .record ((part, .torn) :: members).reverse
        | .member members key => .record ((key, part) :: members).reverse
      else .torn
    tearInto broken frames

/-- The tree of a text that breaks off inside the given frames. -/
def tear (frames : List Frame) : Progress := .failed (tearInto .torn frames)

/-- Takes a complete value. -/
def complete (node : Node) : List Frame → Progress
  | [] => .done node
  | .list items :: frames => .reading (.list (node :: items) :: frames) .commaOrEnd
  | .member members key :: frames => .reading (.record ((key, node) :: members) :: frames) .commaOrEnd
  | .record members :: frames => tear (.record members :: frames)

/-- Closes the innermost list. -/
def closeList : List Frame → Progress
  | .list items :: frames => complete (sealed (.list items.reverse) frames.length) frames
  | frames => tear frames

/-- Closes the innermost record. -/
def closeRecord : List Frame → Progress
  | .record members :: frames => complete (sealed (.record members.reverse) frames.length) frames
  | frames => tear frames

/-- Takes a key into the innermost record. -/
def takeKey (key : Node) : List Frame → Progress
  | .record members :: frames => .reading (.member members key :: frames) .colon
  | frames => tear frames

/-- The tree of a quoted text. -/
def quotedNode : Option String → Node
  | some s => .text s
  | none => .void

/-- Takes a token where a value is expected. -/
def takeValue (frames : List Frame) : Token → Progress
  | .openList => .reading (.list [] :: frames) .valueOrEnd
  | .openRecord => .reading (.record [] :: frames) .keyOrEnd
  | .plain value => complete (.scalar value none) frames
  | .quoted value => complete (quotedNode value) frames
  | _ => tear frames

/-- Takes one token. -/
def step : Progress → Token → Progress
  | .failed root, _ => .failed root
  | .done root, _ => .failed root
  | .reading frames .value, token => takeValue frames token
  | .reading frames .valueOrEnd, .closeList => closeList frames
  | .reading frames .valueOrEnd, token => takeValue frames token
  | .reading frames .key, .quoted value => takeKey (quotedNode value) frames
  | .reading frames .keyOrEnd, .quoted value => takeKey (quotedNode value) frames
  | .reading frames .keyOrEnd, .closeRecord => closeRecord frames
  | .reading frames .colon, .colon => .reading frames .value
  | .reading (.list items :: frames) .commaOrEnd, .comma => .reading (.list items :: frames) .value
  | .reading (.record members :: frames) .commaOrEnd, .comma => .reading (.record members :: frames) .key
  | .reading frames .commaOrEnd, .closeList => closeList frames
  | .reading frames .commaOrEnd, .closeRecord => closeRecord frames
  | .reading frames _, _ => tear frames

end CubeSql.Json

namespace CubeSql

/-- Reads a JSON text. -/
def Document.ofJson (text : String) : Document :=
  match (Json.tokens text.toList).foldl Json.step (.reading [] .value) with
  | .done root => ⟨root, true⟩
  | .failed root => ⟨root, false⟩
  | .reading frames _ => ⟨Json.tearInto .torn frames, false⟩

/-- The free-form value of a JSON text, its objects ordered. -/
def Value.ofJson? (text : String) : Option Value :=
  let document := Document.ofJson text
  if document.endsCleanly then document.root.value?.map Value.ordered else none

end CubeSql
