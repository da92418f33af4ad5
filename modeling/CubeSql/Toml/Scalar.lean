import CubeSql.Document.Node
import CubeSql.Number.Word
import CubeSql.Text.Digits

/-!
# TOML scalars

What an unquoted word stands for: a truth value, a number, or a date or time. No setting is a number or a
date, so of these only the form and the range are checked. Numbers become scalars that denote nothing. Dates
and times become records with a member that no record of settings declares.
-/

namespace CubeSql.Toml

/-! ## Numbers -/

/-- Digits with the underscores between them left out. Every underscore has a digit on either side. -/
def ungrouped? (isDigit : Char → Bool) : List Char → Option (List Char)
  | [] => none
  | [c] => if isDigit c then some [c] else none
  | c :: '_' :: rest => if isDigit c then (ungrouped? isDigit rest).map (c :: ·) else none
  | c :: rest => if isDigit c then (ungrouped? isDigit rest).map (c :: ·) else none

/-- Splits off a sign: whether it is a minus sign, and the rest. -/
def splitSign : List Char → Bool × List Char
  | '-' :: rest => (true, rest)
  | '+' :: rest => (false, rest)
  | rest => (false, rest)

/-- The digits of a decimal number without leading zeros. -/
def decimalDigits? (text : List Char) : Option (List Char) := do
  let digits ← ungrouped? Char.isDigit text
  if digits.length > 1 && digits.head? == some '0' then none else return digits

/-- Whether a word is a number in the given base that fits 64 bits with a sign. -/
def isBased (base : Nat) (text : List Char) : Bool :=
  match ungrouped? (Text.isDigitOf base) text with
  | some digits => fitsSigned 64 (Text.digitsValue base digits)
  | none => false

/-- Whether a word is an integer of 64 bits: decimal with an optional sign, or in base 16, 8 or 2. -/
def isInteger : List Char → Bool
  | '0' :: 'x' :: rest => isBased 16 rest
  | '0' :: 'o' :: rest => isBased 8 rest
  | '0' :: 'b' :: rest => isBased 2 rest
  | word =>
    let (negative, text) := splitSign word
    match decimalDigits? text with
    | some digits =>
      let magnitude : Int := Text.digitsValue 10 digits
      fitsSigned 64 (if negative then -magnitude else magnitude)
    | none => false

/-- The value of the digits after an exponent mark, with an optional sign. -/
def exponent? (text : List Char) : Option Int := do
  let (negative, digits) := splitSign text
  let value := Text.digitsValue 10 (← ungrouped? Char.isDigit digits)
  return if negative then -(value : Int) else value

/-- Whether a word is a floating-point number: it has a fraction, an exponent or both, and is not greater
than every binary64 number; one that is less than all of them is as good as minus infinity. -/
def isFloat (word : List Char) : Bool :=
  let (negative, text) := splitSign word
  if text = "inf".toList || text = "nan".toList then true
  else
    let isMark (c : Char) : Bool := c = 'e' || c = 'E'
    let significand := text.takeWhile fun c => !isMark c
    let whole := significand.takeWhile (· ≠ '.')
    let fraction := significand.drop whole.length
    let exponent := text.drop significand.length
    let parts : Option (List Char × Int) := do
      let wholeDigits ← decimalDigits? whole
      let fractionDigits ← if fraction.isEmpty then pure [] else ungrouped? Char.isDigit fraction.tail
      let power ← if exponent.isEmpty then pure 0 else exponent? exponent.tail
      return (wholeDigits ++ fractionDigits, power - fractionDigits.length)
    match parts with
    | some (digits, power) =>
      !(fraction.isEmpty && exponent.isEmpty)
        && (negative || (Binary64.ofDecimal? false (Text.digitsValue 10 digits) power).isSome)
    | none => false

/-! ## Dates and times -/

/-- How many days a month has. -/
def daysIn (year month : Nat) : Nat :=
  if month = 2 then if year % 4 = 0 && (year % 100 ≠ 0 || year % 400 = 0) then 29 else 28
  else if month = 4 || month = 6 || month = 9 || month = 11 then 30
  else 31

/-- Whether two digits make a number in a range. -/
def inRange (low high : Nat) (a b : Char) : Bool :=
  match Text.digitsValue? 10 [a, b] with
  | some n => low ≤ n && n ≤ high
  | none => false

/-- What follows a date at the start of a text. -/
def afterDate? : List Char → Option (List Char)
  | y₁ :: y₂ :: y₃ :: y₄ :: '-' :: m₁ :: m₂ :: '-' :: d₁ :: d₂ :: rest => do
    let year ← Text.digitsValue? 10 [y₁, y₂, y₃, y₄]
    let month ← Text.digitsValue? 10 [m₁, m₂]
    if inRange 1 12 m₁ m₂ && inRange 1 (daysIn year month) d₁ d₂ then return rest else none
  | _ => none

/-- What follows a time of day at the start of a text: hours, minutes, seconds, and perhaps a fraction. -/
def afterTime? : List Char → Option (List Char)
  | h₁ :: h₂ :: ':' :: m₁ :: m₂ :: ':' :: s₁ :: s₂ :: rest =>
    if inRange 0 23 h₁ h₂ && inRange 0 59 m₁ m₂ && inRange 0 60 s₁ s₂ then
      match rest with
      | '.' :: c :: rest => if c.isDigit then some (rest.dropWhile Char.isDigit) else none
      | rest => some rest
    else none
  | _ => none

/-- Whether a text is empty or a distance from universal time. -/
def isOffset : List Char → Bool
  | [] => true
  | ['Z'] => true
  | ['z'] => true
  | [sign, h₁, h₂, ':', m₁, m₂] =>
    (sign = '+' || sign = '-') && inRange 0 23 h₁ h₂ && inRange 0 59 m₁ m₂
  | _ => false

/-- Whether a text is a time of day with an optional distance from universal time. -/
def isTimeWithOffset (text : List Char) : Bool :=
  match afterTime? text with
  | some rest => isOffset rest
  | none => false

/-- Whether a text is a date and nothing else. -/
def isDate (text : List Char) : Bool := afterDate? text == some []

/-- Whether a word is a date, a time of day, or both with a mark between them. -/
def isDateOrTime (word : List Char) : Bool :=
  match afterDate? word with
  | some [] => true
  | some (mark :: rest) => (mark = 'T' || mark = 't' || mark = ' ') && isTimeWithOffset rest
  | none => afterTime? word == some []

/-- The record of a date or time: its spelling under a name of its own. -/
def dateNode (word : List Char) : Node := .record [(.text "date-time", .text (String.ofList word))]

/-- What a word stands for. -/
def scalar? (word : List Char) : Option Node :=
  if word = "true".toList then some (.scalar (some (.bool true)) none)
  else if word = "false".toList then some (.scalar (some (.bool false)) none)
  else if isDateOrTime word then some (dateNode word)
  else if isInteger word || isFloat word then some .void
  else none

end CubeSql.Toml
