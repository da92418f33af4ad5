import CubeSql.Document.Value
import CubeSql.Number.Shortest

/-!
# Compact JSON text

The text of a free-form value without any spaces, members in the order in which the object holds them.
Inside a quoted text only quotes, backslashes and control characters are escaped.
-/

namespace CubeSql

/-- The text of a number. -/
def Number.text : Number → String
  | .int n => toString n
  | .float x => x.text

namespace Json

/-- A hexadecimal digit in lower case. -/
def hexDigit (n : Nat) : Char := if n < 10 then Char.ofNat (48 + n) else Char.ofNat (87 + n)

/-- What a character becomes inside a quoted text. -/
def escapeChar (c : Char) : List Char :=
  if c = '"' then ['\\', '"']
  else if c = '\\' then ['\\', '\\']
  else if c = '\x08' then ['\\', 'b']
  else if c = '\x0c' then ['\\', 'f']
  else if c = '\n' then ['\\', 'n']
  else if c = '\r' then ['\\', 'r']
  else if c = '\t' then ['\\', 't']
  else if c.toNat < 0x20 then ['\\', 'u', '0', '0', hexDigit (c.toNat / 16), hexDigit (c.toNat % 16)]
  else [c]

/-- A quoted text. -/
def quote (s : String) : String := String.ofList ('"' :: s.toList.flatMap escapeChar ++ ['"'])

end Json

/-- The text of a value without parts. -/
def Scalar.compact : Scalar → String
  | .null => "null"
  | .bool b => if b then "true" else "false"
  | .number n => n.text
  | .text s => Json.quote s

namespace Value

mutual

/-- The compact JSON text of a value. -/
def compact : Value → String
  | .scalar s => s.compact
  | .array items => "[" ++ ",".intercalate (compactItems items) ++ "]"
  | .object members => "\x7b" ++ ",".intercalate (compactMembers members) ++ "\x7d"

/-- The texts of the items of a list. -/
def compactItems : List Value → List String
  | [] => []
  | v :: vs => compact v :: compactItems vs

/-- The texts of the members of an object. -/
def compactMembers : List (String × Value) → List String
  | [] => []
  | (k, v) :: ms => (Json.quote k ++ ":" ++ compact v) :: compactMembers ms

end

end Value

end CubeSql
