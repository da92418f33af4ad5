import CubeSql.Yaml.Folding

/-!
# Reading block scalars

A block scalar is a header and the indented lines below it. Its lines are kept apart, or folded into one
another where neither of two lines begins with white space. The header may give the indentation, which
is otherwise that of the first line with text, and says what becomes of the line ends at the end.
-/

namespace CubeSql.Yaml

/-- What becomes of the line ends at the end of a block scalar. -/
inductive Chomping where
  /-- The first one is kept. -/
  | clip
  /-- None is kept. -/
  | strip
  /-- All are kept. -/
  | keep
deriving DecidableEq, Repr, Inhabited

/-- A line of a text. -/
structure Line where
  /-- The text from the start of the line on. -/
  start : List Spot
  /-- The characters of the line. -/
  chars : List Char
  /-- The character that ends it, if it does end before the text does. -/
  ending : Option Char
deriving Inhabited

/-- The lines of a text. -/
def lines : List Spot → List Line
  | [] => []
  | s :: rest =>
    if isEnd s.char then [⟨s :: rest, [], none⟩]
    else if isBreak s.char then ⟨s :: rest, [], some s.char⟩ :: lines rest
    else
      match lines rest with
      | [] => [⟨s :: rest, [s.char], none⟩]
      | l :: ls => ⟨s :: rest, s.char :: l.chars, l.ending⟩ :: ls

/-! ## Headers -/

/-- How the lines below a header are read. -/
structure BlockHeader where
  /-- What becomes of the line ends at the end. -/
  chomping : Chomping
  /-- How much further the lines are indented than what the scalar belongs to, if that is given. -/
  indent : Option Nat
deriving DecidableEq, Repr, Inhabited

/-- Splits off a mark for the line ends at the end. -/
def splitChomping : List Char → Option Chomping × List Char
  | '-' :: rest => (some .strip, rest)
  | '+' :: rest => (some .keep, rest)
  | rest => (none, rest)

/-- Splits off a digit for the indentation. -/
def splitIndent : List Char → Option Nat × List Char
  | c :: rest => if c.isDigit then (some (c.toNat - '0'.toNat), rest) else (none, c :: rest)
  | [] => (none, [])

/-- Whether nothing but white space and a comment is left of a line. -/
def isSpent (chars : List Char) : Bool :=
  match chars.dropWhile isBlank with
  | [] => true
  | c :: _ => c = '#'

/-- The header that the characters of a line make. The two marks may come in either order. -/
def BlockHeader.ofChars? (chars : List Char) : Option BlockHeader :=
  let (before, chars) := splitChomping chars
  let (indent, chars) := splitIndent chars
  let (after, chars) := if before.isNone && indent.isSome then splitChomping chars else (before, chars)
  if isSpent chars && indent ≠ some 0 then some ⟨after.getD .clip, indent⟩ else none

/-! ## Lines -/

/-- How many spaces a line begins with. -/
def Line.indent (l : Line) : Nat := (l.chars.takeWhile (· = ' ')).length

/-- What a line is to a block scalar. -/
inductive LineKind where
  /-- A line without text. -/
  | empty
  /-- A line of the scalar, without its indentation. -/
  | content (chars : List Char)
  /-- A line that no longer belongs to the scalar, or the end of the text. -/
  | outside
  /-- A line with a tab in place of indentation. -/
  | tabbed
deriving DecidableEq, Repr, Inhabited

/-- What a line is to a scalar with the given indentation. -/
def Line.kind (indent : Nat) (l : Line) : LineKind :=
  let spaces := min l.indent indent
  let chars := l.chars.drop spaces
  if spaces < indent && chars.head? == some '\t' then .tabbed
  else if chars.isEmpty then if l.ending.isSome then .empty else .outside
  else if spaces = indent then .content chars
  else .outside

/-- The indentation that the lines of a block scalar show: that of the first line with text, or of an empty
line before it that has more. Nothing where a tab stands in its place. -/
def shownIndent? : List Line → Option Nat
  | [] => some 0
  | l :: ls =>
    match l.chars.drop l.indent with
    | [] => if l.ending.isSome then (shownIndent? ls).map (max l.indent) else some l.indent
    | c :: _ => if c = '\t' then none else some l.indent

/-- A block scalar that is being read. -/
structure BlockText where
  /-- The characters so far, in reverse order. -/
  taken : List Char
  /-- The end of the last line with text. -/
  lineEnd : List Char
  /-- Whether the last line with text begins with white space. -/
  isIndented : Bool
  /-- The ends of the empty lines after it, in reverse order. -/
  emptyEnds : List Char
deriving Inhabited

/-- Whether a text begins with white space. -/
def beginsBlank : List Char → Bool
  | [] => false
  | c :: _ => isBlank c

/-- Takes a line with text. Where lines are folded, a line end between two lines that begin with text
becomes a space, or vanishes if empty lines follow it. -/
def BlockText.take (literal : Bool) (t : BlockText) (chars : List Char) (ending : Option Char) : BlockText :=
  let between :=
    if !literal && t.lineEnd = ['\n'] && !t.isIndented && !beginsBlank chars then
      if t.emptyEnds.isEmpty then [' '] else []
    else t.lineEnd
  ⟨chars.reverse ++ (t.emptyEnds ++ (between.reverse ++ t.taken)), ending.toList, beginsBlank chars, []⟩

/-- The text of a block scalar that has been read. -/
def BlockText.finish (chomping : Chomping) (t : BlockText) : List Char :=
  match chomping with
  | .strip => t.taken.reverse
  | .clip => t.taken.reverse ++ t.lineEnd
  | .keep => t.taken.reverse ++ t.lineEnd ++ t.emptyEnds.reverse

/-- Reads the lines of a block scalar, and hands back what follows. -/
def takeLines? (literal : Bool) (indent : Nat) (t : BlockText) : List Line → Option (BlockText × List Spot)
  | [] => some (t, [])
  | l :: ls =>
    match l.kind indent with
    | .tabbed => none
    | .outside => some (t, l.start)
    | .empty => takeLines? literal indent { t with emptyEnds := l.ending.toList ++ t.emptyEnds } ls
    | .content chars => takeLines? literal indent (t.take literal chars l.ending) ls

/-- Reads a block scalar after its first mark. `around` is the indentation of what it belongs to. -/
def block? (literal : Bool) (around : Option Nat) (text : List Spot) : Option Scanned :=
  match lines text with
  | [] => none
  | first :: ls => do
    let header ← BlockHeader.ofChars? first.chars
    let least := match around with
      | some n => n + 1
      | none => 1
    let indent ← match header.indent with
      | some further => pure (around.getD 0 + further)
      | none => (shownIndent? ls).map (max least)
    let (t, rest) ← takeLines? literal indent ⟨[], [], false, []⟩ ls
    return ⟨t.finish header.chomping, true, rest⟩

end CubeSql.Yaml
