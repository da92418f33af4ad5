/-!
# Placed characters

A YAML text as a list of characters that know their line and column, since in YAML the place of a character
decides what it means. The list ends with a null character, which no text holds, at the place of the end.

A text is read in stretches. A character that is not allowed shows when its stretch is read, and so only what
stands before that stretch is there: such a text is cut.
-/

namespace CubeSql.Yaml

/-- A character and its place. -/
structure Spot where
  /-- The character. -/
  char : Char
  /-- The number of lines before it. -/
  line : Nat
  /-- The number of characters before it on its line. -/
  column : Nat
  /-- The number of bytes before it in UTF-8. -/
  index : Nat
deriving DecidableEq, Repr, Inhabited

/-- Whether a character ends a line. -/
def isBreak (c : Char) : Bool := c = '\n' || c = '\u2028' || c = '\u2029'

/-- The mark of the encoding, which may stand at the start of any line. -/
def encodingMark : Char := '\ufeff'

/-- White space within a line. -/
def isBlank (c : Char) : Bool := c = ' ' || c = '\t'

/-- Whether a character stands for the end of the text. -/
def isEnd (c : Char) : Bool := c = '\x00'

/-- Whether the first character is white space, or there is none. -/
def startsBlank : List Spot → Bool
  | [] => true
  | s :: _ => isBlank s.char || isBreak s.char || isEnd s.char

/-- Whether a character may stand in a text: control characters may not, but for the tab and line ends. -/
def isAllowed (c : Char) : Bool :=
  c = '\t' || c = '\n' || c = '\r' || c.toNat = 0x85 || (0x20 ≤ c.toNat && c.toNat ≤ 0x7E)
    || (0xA0 ≤ c.toNat && c.toNat ≠ 0xFFFE && c.toNat ≠ 0xFFFF)

/-- A text whose lines end in line feeds, line separators and paragraph separators alone. -/
def unifiedLineEnds : List Char → List Char
  | '\r' :: '\n' :: rest => '\n' :: unifiedLineEnds rest
  | c :: rest => (if c = '\r' || c = '\u0085' then '\n' else c) :: unifiedLineEnds rest
  | [] => []

/-- The greatest number of bytes in a stretch of a text. -/
def stretchSize : Nat := 16384

/-- The characters before the stretch with the first character that is not allowed, and whether there is one.
`room` is the number of bytes left in the stretch whose characters so far are `held`, in reverse order;
`before` are those before it, in reverse order. -/
def readable (room : Nat) (held before : List Char) : List Char → List Char × Bool
  | [] => ((held ++ before).reverse, false)
  | c :: rest =>
    if !isAllowed c then (before.reverse, true)
    else if c.utf8Size ≤ room then readable (room - c.utf8Size) (c :: held) before rest
    else readable (stretchSize - c.utf8Size) [c] (held ++ before) rest

/-- The spots of characters that begin at the given place. -/
def spotsFrom (line column index : Nat) : List Char → List Spot
  | [] => [⟨'\x00', line, column, index⟩]
  | c :: rest =>
    ⟨c, line, column, index⟩ ::
      (if isBreak c then spotsFrom (line + 1) 0 (index + c.utf8Size) rest
       else spotsFrom line (column + 1) (index + c.utf8Size) rest)

/-- The spots of a text as far as it can be read, and whether it is cut. -/
def spots (text : String) : List Spot × Bool :=
  let (chars, isCut) := readable stretchSize [] [] text.toList
  (spotsFrom 0 0 0 (unifiedLineEnds chars), isCut)

/-- Whether a line begins here with a mark between documents: three hyphens, or three dots for an end,
and white space after them. -/
def isDocumentMark (mark : Char) : List Spot → Bool
  | a :: b :: c :: rest =>
    a.column = 0 && a.char = mark && b.char = mark && c.char = mark && startsBlank rest
  | _ => false

/-- Whether a line begins here with any mark between documents. -/
def atDocumentMark (text : List Spot) : Bool := isDocumentMark '-' text || isDocumentMark '.' text

end CubeSql.Yaml
