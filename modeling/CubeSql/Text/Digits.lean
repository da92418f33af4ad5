/-!
# Digits

Digits as numbers: one digit in any base up to sixteen, and a row of them.
-/

namespace CubeSql.Text

/-- The value of a digit, letters counting on from nine. -/
def digitValue? (c : Char) : Option Nat :=
  if '0' ≤ c && c ≤ '9' then some (c.toNat - '0'.toNat)
  else if 'a' ≤ c && c ≤ 'f' then some (c.toNat - 'a'.toNat + 10)
  else if 'A' ≤ c && c ≤ 'F' then some (c.toNat - 'A'.toNat + 10)
  else none

/-- Whether a character is a digit of a base up to sixteen. -/
def isDigitOf (base : Nat) (c : Char) : Bool :=
  match digitValue? c with
  | some value => value < base
  | none => false

/-- The value of a row of digits; no digits make zero. -/
def digitsValue (base : Nat) (digits : List Char) : Nat :=
  digits.foldl (fun n c => base * n + (digitValue? c).getD 0) 0

/-- The value of one or more digits, and of nothing else. -/
def digitsValue? (base : Nat) (digits : List Char) : Option Nat :=
  if !digits.isEmpty && digits.all (isDigitOf base) then some (digitsValue base digits) else none

/-- The character whose code point is written in hexadecimal digits, if there is one. -/
def charOfHex? (digits : List Char) : Option Char := do
  let code ← digitsValue? 16 digits
  if code.isValidChar then return Char.ofNat code else none

end CubeSql.Text
