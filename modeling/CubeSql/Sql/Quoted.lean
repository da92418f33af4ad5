/-!
# Quoting

Names and texts stand in a statement between quotes. What would end the quotation, or mean something
inside it, is written as two characters: each rule here says which two.
-/

namespace CubeSql.Sql

/-- A text in which every character is replaced by what `escape` makes of it. -/
def escapeWith (escape : Char → List Char) (s : String) : String :=
  String.ofList (s.toList.flatMap escape)

/-- A text between two quotes. -/
def between (quote : Char) (s : String) : String :=
  String.ofList (quote :: s.toList ++ [quote])

/-- Every quote is written twice. -/
def doubled (quote : Char) (c : Char) : List Char := if c = quote then [quote, quote] else [c]

/-- A backslash precedes every character of a set. -/
def backslashed (special : List Char) (c : Char) : List Char :=
  if c ∈ special then ['\\', c] else [c]

/-- The quote around names. -/
def nameQuote : Char := '\x22'

/-- The quote around texts. -/
def textQuote : Char := '\x27'

/-- The other quote around names. -/
def graveQuote : Char := '\x60'

end CubeSql.Sql
