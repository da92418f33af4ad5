import CubeSql.Yaml.Spot

/-!
# Folding

How white space inside a scalar is read: within a line it stays as it is, and across lines it becomes one
space, or as many line ends as there are empty lines.
-/

namespace CubeSql.Yaml

/-- White space since the last other character of a scalar. -/
inductive Gap where
  /-- Within a line: the characters, in reverse order. -/
  | within (blanks : List Char)
  /-- Across lines: the first line end unless it is escaped, and the further ones in reverse order. -/
  | across (first : Option Char) (more : List Char)
deriving DecidableEq, Repr, Inhabited

namespace Gap

/-- No white space. -/
def empty : Gap := within []

/-- Whether a line has ended. -/
def isAcross : Gap → Bool
  | across _ _ => true
  | within _ => false

/-- Adds white space within a line; at the start of a line it counts for nothing. -/
def blank (c : Char) : Gap → Gap
  | within blanks => within (c :: blanks)
  | gap => gap

/-- Adds a line end; white space at the end of a line counts for nothing. -/
def lineEnd (c : Char) : Gap → Gap
  | within _ => across (some c) []
  | across first more => across first (c :: more)

/-- What the white space reads as. -/
def text : Gap → List Char
  | within blanks => blanks.reverse
  | across (some '\n') [] => [' ']
  | across (some '\n') more => more.reverse
  | across first more => first.toList ++ more.reverse

end Gap

/-- A scalar that was read: its text, whether a line ended right after it, and the rest. -/
structure Scanned where
  /-- The text. -/
  text : List Char
  /-- Whether a line ended after the last character. -/
  endsLine : Bool
  /-- What follows. -/
  rest : List Spot
deriving Inhabited

end CubeSql.Yaml
