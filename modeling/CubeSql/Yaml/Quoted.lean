import CubeSql.Text.Digits
import CubeSql.Yaml.Folding

/-!
# Reading quoted scalars

Between single quotes only the quote itself is escaped, by doubling it. Between double quotes a backslash
escapes characters and line ends. Either kind may go on over several lines, which are folded.
-/

namespace CubeSql.Yaml

/-- A part of a quoted scalar. -/
inductive Piece where
  /-- A character that is kept, by itself or escaped. -/
  | char (c : Char)
  /-- White space within a line. -/
  | blank (c : Char)
  /-- A line end. -/
  | lineEnd (c : Char)
  /-- An escaped line end. -/
  | joined
deriving DecidableEq, Repr, Inhabited

/-- The part that a character makes which is not escaped. -/
def Piece.ofChar (c : Char) : Piece :=
  if isBlank c then blank c else if isBreak c then lineEnd c else char c

/-- The text of the parts after some white space. -/
def foldPieces (gap : Gap) : List Piece → List Char
  | [] => gap.text
  | .char c :: pieces => gap.text ++ c :: foldPieces .empty pieces
  | .blank c :: pieces => foldPieces (gap.blank c) pieces
  | .lineEnd c :: pieces => foldPieces (gap.lineEnd c) pieces
  | .joined :: pieces => gap.text ++ foldPieces (.across none []) pieces

/-- Puts one more part in front. -/
def withPiece (piece : Piece) (read : Option (List Piece × List Spot)) : Option (List Piece × List Spot) :=
  read.map fun (pieces, rest) => (piece :: pieces, rest)

/-! ## Single quotes -/

/-- Reads the parts up to a single quote, and what follows it. -/
def singlePieces? : List Spot → Option (List Piece × List Spot)
  | [] => none
  | [s] => if s.char = '\x27' then some ([], []) else none
  | s :: t :: rest =>
    if atDocumentMark (s :: t :: rest) || isEnd s.char then none
    else if s.char = '\x27' then
      if t.char = '\x27' then withPiece (.char '\x27') (singlePieces? rest) else some ([], t :: rest)
    else withPiece (.ofChar s.char) (singlePieces? (t :: rest))

/-! ## Double quotes -/

/-- The character behind a backslash and another character. -/
def unescape? (c : Char) : Option Char :=
  if c = '"' || c = '/' || c = '\\' || c = ' ' || c = '\t' then some c
  else if c = '0' then some '\x00'
  else if c = 'a' then some '\x07'
  else if c = 'b' then some '\x08'
  else if c = 't' then some '\t'
  else if c = 'n' then some '\n'
  else if c = 'v' then some '\x0b'
  else if c = 'f' then some '\x0c'
  else if c = 'r' then some '\r'
  else if c = 'e' then some '\x1b'
  else if c = 'N' then some '\u0085'
  else if c = '_' then some '\u00a0'
  else if c = 'L' then some '\u2028'
  else if c = 'P' then some '\u2029'
  else none

/-- How many hexadecimal digits follow a backslash and a letter. -/
def hexLength (c : Char) : Nat :=
  if c = 'x' then 2 else if c = 'u' then 4 else if c = 'U' then 8 else 0

/-- The part that a backslash, the given character and what follows them make. -/
def escaped? (c : Char) (following : List Spot) : Option Piece :=
  if isBreak c then some .joined
  else if hexLength c = 0 then (unescape? c).map .char
  else
    let digits := (following.take (hexLength c)).map Spot.char
    if digits.length = hexLength c then (Text.charOfHex? digits).map .char else none

/-- Reads the parts up to a double quote, and what follows it. -/
def doublePieces? : List Spot → Option (List Piece × List Spot)
  | [] => none
  | s :: rest =>
    if atDocumentMark (s :: rest) || isEnd s.char then none
    else if s.char = '"' then some ([], rest)
    else if s.char = '\\' then
      match rest with
      | [] => none
      | t :: rest =>
        match escaped? t.char rest with
        | some piece => withPiece piece (doublePieces? (rest.drop (hexLength t.char)))
        | none => none
    else withPiece (.ofChar s.char) (doublePieces? rest)
termination_by text => text.length
decreasing_by all_goals (simp only [List.length_cons, List.length_drop]; omega)

/-- Reads a quoted scalar from its first quote on. -/
def quoted? : List Spot → Option Scanned
  | [] => none
  | s :: rest => do
    let (pieces, after) ← if s.char = '"' then doublePieces? rest else singlePieces? rest
    return ⟨foldPieces .empty pieces, false, after⟩

end CubeSql.Yaml
