import CubeSql.Yaml.Folding

/-!
# Reading plain scalars

An unquoted scalar goes on, over several lines if need be, until a colon or a comment, a bracket or comma
within brackets, or a line that is not indented further than what it belongs to.
-/

namespace CubeSql.Yaml

/-- Whether a character separates values within brackets. -/
def isFlowMark (c : Char) : Bool :=
  c = ',' || c = '[' || c = ']' || c = '\x7b' || c = '\x7d'

/-- Whether a colon within brackets stands where a plain scalar may not go on and may not end either. -/
def isStrayColon : List Spot → Bool
  | a :: b :: _ => a.char = ':' && (isFlowMark b.char || b.char = '?')
  | _ => false

/-- Whether a plain scalar ends before a character that is not white space: at a colon before white space,
or at a mark within brackets. -/
def endsPlain (inFlow : Bool) : List Spot → Bool
  | [] => true
  | s :: rest => isEnd s.char || (s.char = ':' && startsBlank rest) || (inFlow && isFlowMark s.char)

/-- Whether a plain scalar ends after white space: at a comment, before a mark between documents, or where
a line has less indentation than it needs. -/
def endsAfter (gap : Gap) (indent : Nat) (inFlow : Bool) : List Spot → Bool
  | [] => true
  | s :: rest =>
    (s.char = '#' && gap ≠ .empty)
      || (gap.isAcross && (atDocumentMark (s :: rest) || (!inFlow && s.column < indent)))

/-- Reads on in a plain scalar whose lines need at least `indent` columns of indentation. `taken` holds its
characters so far in reverse order, and `gap` the white space after them. Nothing where a tab stands in place
of indentation. -/
def plainFrom? (indent : Nat) (inFlow : Bool) (taken : List Char) (gap : Gap) : List Spot → Option Scanned
  | [] => some ⟨taken.reverse, gap.isAcross, []⟩
  | s :: rest =>
    if isBlank s.char then
      if gap.isAcross && s.char = '\t' && s.column < indent then none
      else plainFrom? indent inFlow taken (gap.blank s.char) rest
    else if isBreak s.char then plainFrom? indent inFlow taken (gap.lineEnd s.char) rest
    else if endsAfter gap indent inFlow (s :: rest) then some ⟨taken.reverse, gap.isAcross, s :: rest⟩
    else if inFlow && isStrayColon (s :: rest) then none
    else if endsPlain inFlow (s :: rest) then some ⟨taken.reverse, gap.isAcross, s :: rest⟩
    else plainFrom? indent inFlow (s.char :: (gap.text.reverse ++ taken)) .empty rest

/-- Reads a plain scalar. -/
def plain? (indent : Nat) (inFlow : Bool) (text : List Spot) : Option Scanned :=
  plainFrom? indent inFlow [] .empty text

end CubeSql.Yaml
