import CubeSql.Yaml.Token

/-!
# YAML documents

A YAML text is read by one pass over its tokens, with the lists and records that are still open on a stack.
Where nothing is written in the place of a key, a value or an item, an empty plain scalar stands there, and
only the token after that place shows it. Where a token does not fit, everything still open ends there in
`Node.torn`. A list or record with more than `depthLimit` others around it can only be skipped. A text that
holds more than one document does not end cleanly.
-/

namespace CubeSql.Yaml

/-- The greatest number of lists and records that may stand inside one another. -/
def depthLimit : Nat := 128

/-- How a list is written. -/
inductive ListForm where
  /-- By dashes, indented further than what is around. -/
  | block
  /-- By dashes, not indented further than the record around. -/
  | level
  /-- In brackets. -/
  | flow
deriving DecidableEq, Repr, Inhabited

/-- How a record is written. -/
inductive RecordForm where
  /-- By indentation. -/
  | block
  /-- In braces. -/
  | flow
  /-- As one member among the items of a list in brackets. -/
  | pair
deriving DecidableEq, Repr, Inhabited

/-- A list or record that is still open, its parts in reverse order, and the place that has been reached. -/
inductive Frame where
  /-- A list after an item, or before its first dash. -/
  | afterItem (form : ListForm) (items : List Node)
  /-- A list where an item is expected. -/
  | item (form : ListForm) (items : List Node)
  /-- A record after a member, or before its first key. -/
  | afterMember (form : RecordForm) (members : List (Node × Node))
  /-- A record in braces where a member is expected. -/
  | member (members : List (Node × Node))
  /-- A record after the mark of a key. -/
  | key (form : RecordForm) (members : List (Node × Node))
  /-- A record after a key. -/
  | afterKey (form : RecordForm) (members : List (Node × Node)) (key : Node)
  /-- A record in braces after a member that is a key without any mark. -/
  | bareKey (members : List (Node × Node)) (key : Node)
  /-- A record after the colon behind a key. -/
  | value (form : RecordForm) (members : List (Node × Node)) (key : Node)
deriving Inhabited

/-- How far a text has been read. -/
inductive Progress where
  /-- Nothing has come yet. -/
  | start
  /-- The mark before the document has come. -/
  | opened
  /-- Something is still open: the frames, innermost first. -/
  | reading (frames : List Frame)
  /-- The document has been read. -/
  | done (root : Node)
  /-- The document and a mark after it have been read. -/
  | closed (root : Node)
  /-- The document and the end of the text have been read. -/
  | finished (root : Node)
  /-- The text is not well formed after `root`, which is torn where it breaks off inside. -/
  | failed (root : Node)
deriving Inhabited

/-! ## Closing and tearing -/

/-- A closed list or record, which can only be skipped if too many others stand around it. -/
def sealed (node : Node) (around : Nat) : Node := if around < depthLimit then node else .void

/-- A frame with a part put in the place that has been reached, as its last part. -/
def Frame.tornAt (part : Node) : Frame → Node
  | .afterItem _ items => .list (part :: items).reverse
  | .item _ items => .list (part :: items).reverse
  | .afterMember _ members => .record ((part, .torn) :: members).reverse
  | .member members => .record ((part, .torn) :: members).reverse
  | .key _ members => .record ((part, .torn) :: members).reverse
  | .afterKey _ members before => .record ((before, part) :: members).reverse
  | .bareKey members before => .record ((before, part) :: members).reverse
  | .value _ members before => .record ((before, part) :: members).reverse

/-- Puts a part into the innermost frame as its last part, and closes all frames around it. -/
def tearInto (part : Node) : List Frame → Node
  | [] => part
  | frame :: frames =>
    tearInto (if frames.length < depthLimit then frame.tornAt part else .torn) frames

/-- The tree of a text that breaks off inside the given frames. -/
def tear (frames : List Frame) : Progress := .failed (tearInto .torn frames)

/-- Takes a complete value. -/
def complete (node : Node) : List Frame → Progress
  | [] => .done node
  | .item form items :: frames => .reading (.afterItem form (node :: items) :: frames)
  | .member members :: frames => .reading (.bareKey members node :: frames)
  | .key form members :: frames => .reading (.afterKey form members node :: frames)
  | .value .pair members key :: .item form items :: frames =>
    let pair := sealed (.record ((key, node) :: members).reverse) (frames.length + 1)
    .reading (.afterItem form (pair :: items) :: frames)
  | .value form members key :: frames => .reading (.afterMember form ((key, node) :: members) :: frames)
  | frames => tear frames

/-- Closes a list. -/
def closeList (items : List Node) (frames : List Frame) : Progress :=
  complete (sealed (.list items.reverse) frames.length) frames

/-- Closes a record. -/
def closeRecord (members : List (Node × Node)) (frames : List Frame) : Progress :=
  complete (sealed (.record members.reverse) frames.length) frames

/-! ## Taking tokens -/

/-- Takes a token where a value is expected. A list by dashes may stand level with a record around it. -/
def takeValue (frames : List Frame) : Token → Progress
  | .scalar node => complete node frames
  | .openList => .reading (.item .flow [] :: frames)
  | .openRecord => .reading (.member [] :: frames)
  | .listStart => .reading (.afterItem .block [] :: frames)
  | .recordStart => .reading (.afterMember .block [] :: frames)
  | .dash =>
    match frames with
    | .key .block _ :: _ => .reading (.item .level [] :: frames)
    | .value .block _ _ :: _ => .reading (.item .level [] :: frames)
    | _ => tear frames
  | _ => tear frames

/-- Takes a token after an item of a list in brackets. -/
def takeAfterFlowItem (items : List Node) (frames : List Frame) : Token → Progress
  | .comma => .reading (.item .flow items :: frames)
  | .closeList => closeList items frames
  | _ => tear (.afterItem .flow items :: frames)

/-- Takes a token after a member of a record. A member among the items of a list ends by itself. -/
def takeAfterMember (form : RecordForm) (members : List (Node × Node)) (frames : List Frame)
    (token : Token) : Progress :=
  match form, token, frames with
  | .block, .key, _ => .reading (.key .block members :: frames)
  | .block, .blockEnd, _ => closeRecord members frames
  | .flow, .comma, _ => .reading (.member members :: frames)
  | .flow, .closeRecord, _ => closeRecord members frames
  | .pair, token, .item .flow items :: frames =>
    takeAfterFlowItem (sealed (.record members.reverse) (frames.length + 1) :: items) frames token
  | form, _, _ => tear (.afterMember form members :: frames)

/-- Takes a token after a key. Without a colon the value is empty. -/
def takeAfterKey (form : RecordForm) (members : List (Node × Node)) (key : Node) (frames : List Frame) :
    Token → Progress
  | .colon => .reading (.value form members key :: frames)
  | token => takeAfterMember form ((key, emptyNode) :: members) frames token

/-- Takes a token after an item of a list by dashes. One that stands level with the record around it ends
where no dash follows. -/
def takeAfterBlockItem (form : ListForm) (items : List Node) (frames : List Frame) (token : Token) :
    Progress :=
  match form, token, frames with
  | form, .dash, _ => .reading (.item form items :: frames)
  | .block, .blockEnd, _ => closeList items frames
  | .level, token, .key around members :: frames =>
    takeAfterKey around members (sealed (.list items.reverse) (frames.length + 1)) frames token
  | .level, token, .value around members key :: frames =>
    takeAfterMember around ((key, sealed (.list items.reverse) (frames.length + 1)) :: members) frames token
  | form, _, _ => tear (.afterItem form items :: frames)

/-- Whether a token shows that a place for an item, after a dash, is empty. -/
def endsItem : ListForm → Token → Bool
  | .flow, _ => false
  | _, .dash => true
  | _, .blockEnd => true
  | .level, .key => true
  | .level, .colon => true
  | _, _ => false

/-- Whether a token shows that a place for a value is empty. -/
def endsValue : RecordForm → Token → Bool
  | .block, .key => true
  | .block, .colon => true
  | .block, .blockEnd => true
  | .flow, .comma => true
  | .flow, .closeRecord => true
  | .pair, .comma => true
  | .pair, .closeList => true
  | _, _ => false

/-- Whether a token shows that a place for a key is empty. -/
def endsKey : RecordForm → Token → Bool
  | _, .colon => true
  | form, token => endsValue form token

/-- Takes a token into the innermost frame. An empty key among the items of a list takes up the token that
shows it. -/
def takeInside (frame : Frame) (frames : List Frame) (token : Token) : Progress :=
  match frame, token with
  | .item .flow items, .closeList => closeList items frames
  | .item .flow _, .key => .reading (.key .pair [] :: frame :: frames)
  | .item form items, token =>
    if endsItem form token then takeAfterBlockItem form (emptyNode :: items) frames token
    else takeValue (frame :: frames) token
  | .afterItem .flow items, token => takeAfterFlowItem items frames token
  | .afterItem form items, token => takeAfterBlockItem form items frames token
  | .member members, .closeRecord => closeRecord members frames
  | .member members, .key => .reading (.key .flow members :: frames)
  | .member _, token => takeValue (frame :: frames) token
  | .key form members, token =>
    if endsKey form token then
      if form = .pair then .reading (.afterKey .pair members emptyNode :: frames)
      else takeAfterKey form members emptyNode frames token
    else takeValue (frame :: frames) token
  | .afterKey form members key, token => takeAfterKey form members key frames token
  | .bareKey members key, token => takeAfterMember .flow ((key, emptyNode) :: members) frames token
  | .value form members key, token =>
    if endsValue form token then takeAfterMember form ((key, emptyNode) :: members) frames token
    else takeValue (frame :: frames) token
  | .afterMember form members, token => takeAfterMember form members frames token

/-- Takes a token after the document. -/
def takeAfterDocument (root : Node) : Token → Progress
  | .documentEnd => .closed root
  | .finish => .finished root
  | _ => .failed root

/-- Takes one token. -/
def step : Progress → Token → Progress
  | .start, .documentStart => .opened
  | .start, .finish => .finished emptyNode
  | .start, token => takeValue [] token
  | .opened, .documentStart => .failed emptyNode
  | .opened, .documentEnd => .closed emptyNode
  | .opened, .finish => .finished emptyNode
  | .opened, token => takeValue [] token
  | .reading frames, .broken => tear frames
  | .reading (frame :: frames), token => takeInside frame frames token
  | .reading [], _ => tear []
  | .done root, token => takeAfterDocument root token
  | .closed root, token => takeAfterDocument root token
  | .finished root, _ => .failed root
  | .failed root, _ => .failed root

/-- The document that has been read. -/
def Progress.document : Progress → Document
  | .start => ⟨.torn, false⟩
  | .opened => ⟨.torn, false⟩
  | .reading frames => ⟨tearInto .torn frames, false⟩
  | .done root => ⟨root, false⟩
  | .closed root => ⟨root, false⟩
  | .finished root => ⟨root, true⟩
  | .failed root => ⟨root, false⟩

end CubeSql.Yaml

namespace CubeSql

/-- The document of a YAML text. -/
def Document.ofYaml (text : String) : Document :=
  ((Yaml.tokens text).foldl Yaml.step .start).document

end CubeSql
