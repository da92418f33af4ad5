import CubeSql.Yaml.Block
import CubeSql.Yaml.Plain
import CubeSql.Yaml.Quoted
import CubeSql.Yaml.Scalar

/-!
# YAML tokens

A YAML text as a list of tokens, among them the starts and ends that indentation stands for. Where a colon
shows that what stands before it on the same line is a key, the token for a key is put in front of it
afterwards; so a list of tokens is settled only up to the earliest place that may still become a key
(`Layout.settled`). A text that breaks off yields its settled tokens and `Token.broken`.

Directives, tags, anchors and aliases are not read: a text breaks off before them.
-/

namespace CubeSql.Yaml

/-- A token of a YAML text. -/
inductive Token where
  /-- The mark before a document. -/
  | documentStart
  /-- The mark after a document. -/
  | documentEnd
  /-- The start of an indented list. -/
  | listStart
  /-- The start of an indented record. -/
  | recordStart
  /-- The end of an indented list or record. -/
  | blockEnd
  /-- An opening bracket. -/
  | openList
  /-- A closing bracket. -/
  | closeList
  /-- An opening brace. -/
  | openRecord
  /-- A closing brace. -/
  | closeRecord
  /-- A comma. -/
  | comma
  /-- A dash before an item. -/
  | dash
  /-- What stands in front of a key. -/
  | key
  /-- A colon in front of a value. -/
  | colon
  /-- A scalar. -/
  | scalar (node : Node)
  /-- The end of the text. -/
  | finish
  /-- No token. -/
  | broken
deriving Inhabited

/-- A place that may still turn out to be the start of a key. -/
structure Candidate where
  /-- The number of tokens before it. -/
  position : Nat
  /-- Its first character. -/
  spot : Spot
  /-- Whether nothing but a key may stand there. -/
  isRequired : Bool
deriving Inhabited

/-- A text that is being split into tokens. -/
structure Layout where
  /-- What is left of the text. -/
  rest : List Spot
  /-- Whether the text is cut. -/
  isCut : Bool
  /-- The columns of the indented lists and records that are open, innermost first. -/
  indents : List Nat
  /-- The latest place that may be a key, for each pair of brackets that is open, innermost first, and for
  what is outside all brackets. -/
  candidates : List (Option Candidate)
  /-- Whether a key may start at the next token. -/
  allowsKey : Bool
  /-- The tokens so far, in reverse order. -/
  tokens : List Token
  /-- The number of tokens so far. -/
  count : Nat
deriving Inhabited

namespace Layout

/-- The start of a text. -/
def start (text : List Spot) (isCut : Bool) : Layout := ⟨text, isCut, [], [none], true, [], 0⟩

/-- Whether any brackets are open. -/
def inFlow (s : Layout) : Bool := !s.candidates.tail.isEmpty

/-- Adds a token. -/
def emit (s : Layout) (t : Token) : Layout := { s with tokens := t :: s.tokens, count := s.count + 1 }

/-- Puts tokens in front of a token that is there already. -/
def insertAt (s : Layout) (position : Nat) (ts : List Token) : Layout :=
  let after := s.count - position
  { s with
    tokens := s.tokens.take after ++ ts.reverse ++ s.tokens.drop after
    count := s.count + ts.length }

/-- Whether a column is indented further than all that is open. -/
def isDeeper (s : Layout) (column : Nat) : Bool :=
  match s.indents with
  | [] => true
  | n :: _ => n < column

/-- Closes indented lists and records until the given columns are left. -/
def closeTo (keep : Nat → Bool) (s : Layout) : Layout :=
  if s.inFlow then s
  else
    let closed := s.indents.takeWhile fun n => !keep n
    { s with
      indents := s.indents.drop closed.length
      tokens := closed.map (fun _ => Token.blockEnd) ++ s.tokens
      count := s.count + closed.length }

/-- Opens an indented list or record at a column, unless one is open there. -/
def openAt (s : Layout) (column : Nat) (t : Token) : Layout :=
  if !s.inFlow && s.isDeeper column then { s.emit t with indents := column :: s.indents } else s

/-! ## Keys -/

/-- Drops the candidate of the innermost brackets. Nothing where it had to be a key. -/
def dropCandidate? (s : Layout) : Option Layout :=
  match s.candidates with
  | some c :: cs => if c.isRequired then none else some { s with candidates := none :: cs }
  | _ => some s

/-- Takes note that a key may start here. -/
def noteCandidate? (s : Layout) (spot : Spot) : Option Layout :=
  if s.allowsKey then do
    let s ← s.dropCandidate?
    let isRequired := !s.inFlow && s.indents.head? == some spot.column
    return { s with candidates := some ⟨s.count, spot, isRequired⟩ :: s.candidates.tail }
  else some s

/-- The greatest number of bytes that a key without a mark of its own may have. -/
def greatestKeyLength : Nat := 1024

/-- Whether a candidate may still be a key at the given spot: a key ends on the line where it starts. -/
def Candidate.isOpenAt (c : Candidate) (spot : Spot) : Bool :=
  c.spot.line = spot.line && spot.index ≤ c.spot.index + greatestKeyLength

/-- Whether a place can no longer be the start of a key at the given spot. -/
def Candidate.isStaleAt (spot : Spot) : Option Candidate → Bool
  | none => false
  | some c => !Candidate.isOpenAt c spot

/-- Drops the candidates that can no longer be keys. Nothing where one had to be a key. -/
def dropStale? (s : Layout) : Option Layout :=
  match s.rest with
  | [] => some s
  | spot :: _ =>
    let stale := s.candidates.filter (Candidate.isStaleAt spot)
    if stale.isEmpty then some s
    else if stale.any fun c => c.any Candidate.isRequired then none
    else some { s with candidates := s.candidates.map fun c => if Candidate.isStaleAt spot c then none else c }

/-- The tokens, in reverse order, before the earliest place that may still be a key. -/
def settled (s : Layout) : List Token :=
  let position := (s.candidates.filterMap fun c => c.map Candidate.position).foldl min s.count
  s.tokens.drop (s.count - position)

/-! ## Steps -/

/-- Skips white space, comments, line ends, and the mark of the encoding at the start of a line, which takes
up a column. Outside brackets a key may start on every new line, and a tab may not stand where one may
start. -/
def skipFrom (inFlow : Bool) : Bool → Bool → List Spot → Bool × List Spot
  | allowsKey, _, [] => (allowsKey, [])
  | allowsKey, inComment, s :: rest =>
    if isBreak s.char then skipFrom inFlow (allowsKey || !inFlow) false rest
    else if isEnd s.char then (allowsKey, s :: rest)
    else if inComment || s.char = ' ' || (s.char = '\t' && (inFlow || !allowsKey)) then
      skipFrom inFlow allowsKey inComment rest
    else if s.column = 0 && s.char = encodingMark then skipFrom inFlow allowsKey false rest
    else if s.char = '#' then skipFrom inFlow allowsKey true rest
    else (allowsKey, s :: rest)

/-- Skips to the next token. -/
def skip (s : Layout) : Layout :=
  let (allowsKey, rest) := skipFrom s.inFlow s.allowsKey false s.rest
  { s with allowsKey, rest }

/-- Takes the end of the text. -/
def takeEnd? (s : Layout) : Option Layout := do
  let s ← (s.closeTo fun _ => false).dropCandidate?
  return { s.emit .finish with allowsKey := false }

/-- Takes a mark between documents. -/
def takeMark? (s : Layout) (t : Token) : Option Layout := do
  let s ← (s.closeTo fun _ => false).dropCandidate?
  return { s.emit t with allowsKey := false, rest := s.rest.drop 3 }

/-- Takes an opening bracket or brace. -/
def openFlow? (s : Layout) (spot : Spot) (t : Token) : Option Layout := do
  let s ← s.noteCandidate? spot
  return { s.emit t with candidates := none :: s.candidates, allowsKey := true }

/-- Takes a closing bracket or brace. -/
def closeFlow? (s : Layout) (t : Token) : Option Layout := do
  let s ← s.dropCandidate?
  let candidates := if s.inFlow then s.candidates.tail else s.candidates
  return { s.emit t with candidates, allowsKey := false }

/-- Takes a comma. -/
def takeComma? (s : Layout) : Option Layout := do
  let s ← s.dropCandidate?
  return { s.emit .comma with allowsKey := true }

/-- Takes a dash. -/
def takeDash? (s : Layout) (spot : Spot) : Option Layout :=
  if s.inFlow || s.allowsKey then do
    let s ← (s.openAt spot.column .listStart).dropCandidate?
    return { s.emit .dash with allowsKey := true }
  else none

/-- Takes the mark of a key. -/
def takeKeyMark? (s : Layout) (spot : Spot) : Option Layout :=
  if s.inFlow || s.allowsKey then do
    let s ← (s.openAt spot.column .recordStart).dropCandidate?
    return { s.emit .key with allowsKey := !s.inFlow }
  else none

/-- Takes a colon: it makes the latest candidate a key, or it stands after a key with a mark. -/
def takeColon? (s : Layout) (spot : Spot) : Option Layout :=
  match s.candidates with
  | some c :: cs =>
    let s := { s with candidates := none :: cs }
    let opened : Layout :=
      if !s.inFlow && s.isDeeper c.spot.column then
        { s.insertAt c.position [.recordStart, .key] with indents := c.spot.column :: s.indents }
      else s.insertAt c.position [.key]
    some { opened.emit .colon with allowsKey := false }
  | _ =>
    if s.inFlow || s.allowsKey then
      let s := s.openAt spot.column .recordStart
      some { s.emit .colon with allowsKey := !s.inFlow }
    else none

/-- Takes a quoted scalar. -/
def takeQuoted? (s : Layout) (spot : Spot) : Option Layout := do
  let s ← s.noteCandidate? spot
  let found ← quoted? s.rest
  return { s.emit (.scalar (.text (String.ofList found.text))) with allowsKey := false, rest := found.rest }

/-- Takes a plain scalar, which needs more indentation than what it belongs to. -/
def takePlain? (s : Layout) (spot : Spot) : Option Layout := do
  let s ← s.noteCandidate? spot
  let least := match s.indents with
    | [] => 0
    | n :: _ => n + 1
  let found ← plain? least s.inFlow s.rest
  return { s.emit (.scalar (plainNode (String.ofList found.text))) with
    allowsKey := found.endsLine, rest := found.rest }

/-- Takes a block scalar. -/
def takeBlock? (s : Layout) (literal : Bool) : Option Layout := do
  let s ← s.dropCandidate?
  let found ← block? literal s.indents.head? s.rest.tail
  return { s.emit (.scalar (.text (String.ofList found.text))) with allowsKey := true, rest := found.rest }

/-- The characters other than white space, brackets and commas with which no plain scalar starts. -/
def indicators : List Char := ['#', '&', '*', '!', '|', '>', '\x27', '"', '%', '@', '\x60']

/-- Whether a plain scalar starts with a character that makes no token of its own here. -/
def startsPlain (inFlow : Bool) (c : Char) : Bool :=
  if c = '?' || c = ':' then !inFlow
  else !isBlank c && !isBreak c && !isFlowMark c && !indicators.contains c

/-- Takes the token at the given spot, which is the first one left of the text. -/
def take? (s : Layout) (spot : Spot) (rest : List Spot) : Option Layout :=
  let c := spot.char
  let after (t : Option Layout) : Option Layout := t.map fun t => { t with rest }
  if isDocumentMark '-' s.rest then s.takeMark? .documentStart
  else if isDocumentMark '.' s.rest then s.takeMark? .documentEnd
  else if spot.column = 0 && c = '%' then none
  else if c = '[' then after (s.openFlow? spot .openList)
  else if c = '\x7b' then after (s.openFlow? spot .openRecord)
  else if c = ']' then after (s.closeFlow? .closeList)
  else if c = '\x7d' then after (s.closeFlow? .closeRecord)
  else if c = ',' then after s.takeComma?
  else if c = '-' && startsBlank rest then after (s.takeDash? spot)
  else if c = '?' && (s.inFlow || startsBlank rest) then after (s.takeKeyMark? spot)
  else if c = ':' && (s.inFlow || startsBlank rest) then after (s.takeColon? spot)
  else if c = '|' && !s.inFlow then s.takeBlock? true
  else if c = '>' && !s.inFlow then s.takeBlock? false
  else if c = '"' || c = '\x27' then s.takeQuoted? spot
  else if startsPlain s.inFlow c then s.takePlain? spot
  else none

/-- Whether at most the given number of characters are left of a text that is cut. -/
def isCutWithin (s : Layout) (length : Nat) : Bool := s.isCut && (s.rest.drop (length + 1)).isEmpty

/-- The number of characters that must be there before a token is taken, where the text does not end. -/
def lookahead : Nat := 4

/-- Takes the next token, and those that indentation puts before it. Nothing where a cut text has too little
left to tell which token that is, or where it ends. -/
def step? (s : Layout) : Option Layout := do
  let s ← s.skip.dropStale?
  if s.isCutWithin (lookahead - 1) then none
  else
    match s.rest with
    | [] => s.takeEnd?
    | spot :: rest =>
      let s := s.closeTo fun n => n ≤ spot.column
      if isEnd spot.char then s.takeEnd?
      else
        let s ← s.take? spot rest
        if s.isCutWithin 0 then none else s.dropStale?

/-- Whether the end of the text has been taken. -/
def isFinished (s : Layout) : Bool :=
  match s.tokens with
  | .finish :: _ => true
  | _ => false

/-- The tokens of a text from the given state on, in at most the given number of steps. -/
def scan : Nat → Layout → List Token
  | 0, s => (.broken :: s.settled).reverse
  | steps + 1, s =>
    match s.step? with
    | none => (.broken :: s.settled).reverse
    | some next => if next.isFinished then next.tokens.reverse else scan steps next

end Layout

/-- The tokens of a text. Every token but the last takes up at least one character. -/
def tokens (text : String) : List Token :=
  let (spots, isCut) := spots text
  Layout.scan spots.length (.start spots isCut)

end CubeSql.Yaml
