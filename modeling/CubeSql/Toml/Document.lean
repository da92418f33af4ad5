import CubeSql.Toml.Table
import CubeSql.Toml.Token

/-!
# TOML documents

A TOML text is a row of lines: headers, and keys with their values. A value may go on over several lines
within a list. Each value is read by one pass over its tokens, with the lists and records that are still
open on a stack, and the lines are taken into the outermost table one after the other. A text that breaks
any rule yields nothing.
-/

namespace CubeSql.Toml

/-- The least number of lists, records or keys that may no longer stand inside one another. -/
def depthLimit : Nat := 80

/-! ## Keys -/

/-- A part of a dotted key. -/
inductive KeyPart where
  /-- A name. -/
  | name (chars : List Char)
  /-- A dot. -/
  | dot
deriving DecidableEq, Repr

/-- Splits an unquoted word at its dots. -/
def wordParts : List Char → List KeyPart
  | [] => []
  | c :: cs =>
    if c = '.' then .dot :: wordParts cs
    else
      match wordParts cs with
      | .name chars :: parts => .name (c :: chars) :: parts
      | parts => .name [c] :: parts

/-- The parts of a dotted key; nothing where a token does not belong to a key. -/
def keyParts? : List Token → Option (List KeyPart)
  | [] => some []
  | .blank :: ts => keyParts? ts
  | .quoted text false :: ts => (keyParts? ts).map (.name text.toList :: ·)
  | .word chars :: ts =>
    if chars.all fun c => isKeyChar c || c = '.' then (keyParts? ts).map (wordParts chars ++ ·) else none
  | _ :: _ => none

/-- The names of a dotted key, which has a dot between any two of them. -/
def keyNames? : List KeyPart → Option (List String)
  | [.name chars] => some [String.ofList chars]
  | .name chars :: .dot :: parts => (keyNames? parts).map (String.ofList chars :: ·)
  | _ => none

/-- The dotted key that the tokens make. -/
def KeyPath.ofTokens? (ts : List Token) : Option KeyPath := do
  let names ← keyNames? (← keyParts? ts)
  let key ← names.getLast?
  if names.length < depthLimit then return ⟨names.dropLast, key⟩ else none

/-! ## Values -/

/-- A list or record that is still open. -/
inductive Frame where
  /-- A list, its items in reverse order. -/
  | list (items : List Node)
  /-- A record before a key or at its end. -/
  | record (members : Members)
  /-- A record after a key and its equals sign. -/
  | member (members : Members) (path : KeyPath)
deriving Inhabited

/-- What may come next within a value. -/
inductive Expectation where
  /-- A value. -/
  | value
  /-- A value, or the end of the list. -/
  | valueOrEnd
  /-- The rest of a key whose tokens so far are given in reverse order, or its equals sign. -/
  | key (taken : List Token)
  /-- A key, or the end of the record just opened. -/
  | keyOrEnd
  /-- A comma, or the end of the list or record around. -/
  | commaOrEnd
deriving DecidableEq, Repr, Inhabited

/-- How far a value has been read. -/
inductive Progress where
  /-- Something is still open or nothing has come yet: the open frames, innermost first. -/
  | reading (frames : List Frame) (next : Expectation)
  /-- The value has been read. -/
  | done (node : Node)
deriving Inhabited

/-- Opens a list or record, unless too many stand around it. -/
def enter (frame : Frame) (next : Expectation) (frames : List Frame) : Option Progress :=
  if frames.length + 1 < depthLimit then some (.reading (frame :: frames) next) else none

/-- Takes a complete value. -/
def complete (node : Node) : List Frame → Option Progress
  | [] => some (.done node)
  | .list items :: frames => some (.reading (.list (node :: items) :: frames) .commaOrEnd)
  | .member members path :: frames => do
    return .reading (.record (← members.insert? path node) :: frames) .commaOrEnd
  | .record _ :: _ => none

/-- Closes the innermost list. -/
def closeList : List Frame → Option Progress
  | .list items :: frames => complete (.list items.reverse) frames
  | _ => none

/-- Closes the innermost record. -/
def closeRecord : List Frame → Option Progress
  | .record members :: frames => complete members.node frames
  | _ => none

/-- Takes a token where a value is expected. -/
def takeValue (frames : List Frame) : Token → Option Progress
  | .openList => enter (.list []) .valueOrEnd frames
  | .openRecord => enter (.record []) .keyOrEnd frames
  | .word chars => (scalar? chars).bind fun node => complete node frames
  | .quoted text _ => complete (.text text) frames
  | _ => none

/-- Takes a key into the innermost record. -/
def takeKey (key : List Token) : List Frame → Option Progress
  | .record members :: frames => do
    return .reading (.member members (← KeyPath.ofTokens? key) :: frames) .value
  | _ => none

/-- Whether a line may end here: only between the items of a list. -/
def mayBreak : List Frame → Bool
  | .list _ :: _ => true
  | _ => false

/-- Takes one token of a value. -/
def step : Progress → Token → Option Progress
  | .done node, .blank => some (.done node)
  | .done _, _ => none
  | .reading frames next, .blank => some (.reading frames next)
  | .reading frames next, .newline => if mayBreak frames then some (.reading frames next) else none
  | .reading frames .value, token => takeValue frames token
  | .reading frames .valueOrEnd, .closeList => closeList frames
  | .reading frames .valueOrEnd, token => takeValue frames token
  | .reading frames .keyOrEnd, .closeRecord => closeRecord frames
  | .reading frames .keyOrEnd, token => some (.reading frames (.key [token]))
  | .reading frames (.key taken), .equals => takeKey taken.reverse frames
  | .reading frames (.key taken), token => some (.reading frames (.key (token :: taken)))
  | .reading (.list items :: frames) .commaOrEnd, .comma =>
    some (.reading (.list items :: frames) .valueOrEnd)
  | .reading (.record members :: frames) .commaOrEnd, .comma =>
    some (.reading (.record members :: frames) (.key []))
  | .reading frames .commaOrEnd, .closeList => closeList frames
  | .reading frames .commaOrEnd, .closeRecord => closeRecord frames
  | .reading _ .commaOrEnd, _ => none

/-- The tree of the value that the tokens make. -/
def value? (ts : List Token) : Option Node := do
  match ← ts.foldlM step (.reading [] .value) with
  | .done node => return node
  | .reading _ _ => none

/-! ## Lines -/

/-- A line of a document, with the lines on which its value goes on. -/
inductive Line where
  /-- The header of a table. -/
  | table (path : KeyPath)
  /-- The header of one more table of a list. -/
  | element (path : KeyPath)
  /-- A key and its value. -/
  | member (path : KeyPath) (node : Node)
deriving Inhabited

/-- Splits tokens into lines; within brackets a line goes on. `depth` brackets are open, and `taken` holds
the tokens of the line so far in reverse order. -/
def splitLines (depth : Nat) (taken : List Token) : List Token → List (List Token)
  | [] => [taken.reverse]
  | .newline :: ts =>
    if depth = 0 then taken.reverse :: splitLines 0 [] ts else splitLines depth (.newline :: taken) ts
  | .openList :: ts => splitLines (depth + 1) (.openList :: taken) ts
  | .closeList :: ts => splitLines (depth - 1) (.closeList :: taken) ts
  | t :: ts => splitLines depth (t :: taken) ts

/-- The line that the tokens make. -/
def Line.ofTokens? (ts : List Token) : Option Line :=
  let isBlank (t : Token) : Bool := t == .blank
  match ts.dropWhile isBlank with
  | .openList :: .openList :: rest =>
    match rest.dropWhile (· ≠ .closeList) with
    | .closeList :: .closeList :: after =>
      if after.all isBlank then (KeyPath.ofTokens? (rest.takeWhile (· ≠ .closeList))).map .element else none
    | _ => none
  | .openList :: rest =>
    match rest.dropWhile (· ≠ .closeList) with
    | .closeList :: after =>
      if after.all isBlank then (KeyPath.ofTokens? (rest.takeWhile (· ≠ .closeList))).map .table else none
    | _ => none
  | ts =>
    match ts.dropWhile (· ≠ .equals) with
    | .equals :: after => do
      return .member (← KeyPath.ofTokens? (ts.takeWhile (· ≠ .equals))) (← value? after)
    | _ => none

/-! ## Documents -/

/-- A document that is being read: its outermost table, and the keys of the latest header. -/
structure Draft where
  /-- The outermost table. -/
  root : Members
  /-- The keys of the latest header. -/
  header : List String
deriving Inhabited

/-- Takes one line. -/
def Draft.take? (d : Draft) : Line → Option Draft
  | .table path => (d.root.openTable? path).map fun root => ⟨root, path.toList⟩
  | .element path => (d.root.openElement? path).map fun root => ⟨root, path.toList⟩
  | .member path node => (d.root.insertWithin? d.header path node).map fun root => ⟨root, d.header⟩

/-- A text whose lines end in line feeds alone. -/
def unifiedLineEnds : List Char → List Char
  | '\r' :: '\n' :: rest => '\n' :: unifiedLineEnds rest
  | c :: rest => c :: unifiedLineEnds rest
  | [] => []

/-- A text without the mark that says how it is encoded. -/
def withoutEncodingMark : List Char → List Char
  | '\ufeff' :: rest => rest
  | text => text

/-- The tree of a TOML text, if it is one. -/
def node? (text : String) : Option Node := do
  let ts := tokens (unifiedLineEnds (withoutEncodingMark text.toList))
  let lines := (splitLines 0 [] ts).filter fun line => line.any (· ≠ .blank)
  let document ← (← lines.mapM Line.ofTokens?).foldlM Draft.take? ⟨[], []⟩
  return document.root.node

end CubeSql.Toml
