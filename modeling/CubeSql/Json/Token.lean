import CubeSql.Document.Value
import CubeSql.Number.Word
import CubeSql.Text.Digits
import CubeSql.Text.Escaped

/-!
# JSON tokens

A JSON text as a list of tokens. A scanned text ends with `Token.broken` where something is no token:
an unfinished or ill-escaped quoted text, a raw control character, or a word that is neither a literal
name nor a number. A quoted text with a lone surrogate, and a number too great to hold, are tokens that
denote nothing.
-/

namespace CubeSql.Json

/-- A token of a JSON text. -/
inductive Token where
  /-- An opening bracket. -/
  | openList
  /-- A closing bracket. -/
  | closeList
  /-- An opening brace. -/
  | openRecord
  /-- A closing brace. -/
  | closeRecord
  /-- A comma. -/
  | comma
  /-- A colon. -/
  | colon
  /-- A scalar other than a text; nothing where it denotes nothing. -/
  | plain (value : Option Scalar)
  /-- A quoted text; nothing where it denotes nothing. -/
  | quoted (value : Option String)
  /-- No token. -/
  | broken
deriving DecidableEq, Repr, Inhabited

/-- White space between tokens. -/
def isSpace (c : Char) : Bool := c = ' ' || c = '\t' || c = '\n' || c = '\r'

/-- The token that a single character makes. -/
def punctuation? (c : Char) : Option Token :=
  if c = '[' then some .openList
  else if c = ']' then some .closeList
  else if c = '\x7b' then some .openRecord
  else if c = '\x7d' then some .closeRecord
  else if c = ',' then some .comma
  else if c = ':' then some .colon
  else none

/-- Whether a character belongs to a word: a literal name, a number, or something that is no token. -/
def isWordChar (c : Char) : Bool := !isSpace c && c ≠ '"' && (punctuation? c).isNone

/-! ## Numbers -/

/-- The parts of a number: its sign, its digits before and after the point, and its exponent. -/
structure Numeral where
  /-- Whether a minus sign stands in front. -/
  negative : Bool
  /-- The digits before the point. -/
  whole : List Char
  /-- The digits after the point, if there is a point. -/
  fraction : Option (List Char)
  /-- The exponent, if there is one. -/
  exponent : Option Int
deriving DecidableEq, Repr, Inhabited

/-- An exponent after its mark: an optional sign and at least one digit. -/
def exponent? : List Char → Option Int
  | '-' :: digits => (Text.digitsValue? 10 digits).map fun n => -(n : Int)
  | '+' :: digits => (Text.digitsValue? 10 digits).map fun n => (n : Int)
  | digits => (Text.digitsValue? 10 digits).map fun n => (n : Int)

/-- Reads the parts of a number: no leading zeros, and at least one digit on either side of a point. -/
def Numeral.ofWord? (word : List Char) : Option Numeral :=
  let (negative, word) : Bool × List Char :=
    match word with
    | '-' :: rest => (true, rest)
    | rest => (false, rest)
  let whole := word.takeWhile Char.isDigit
  if whole.isEmpty || (whole.length > 1 && whole.head? == some '0') then none
  else
    let afterWhole := word.drop whole.length
    let (fraction, afterFraction) : Option (List Char) × List Char :=
      match afterWhole with
      | '.' :: rest => (some (rest.takeWhile Char.isDigit), rest.dropWhile Char.isDigit)
      | rest => (none, rest)
    if fraction == some [] then none
    else
      match afterFraction with
      | [] => some ⟨negative, whole, fraction, none⟩
      | mark :: rest =>
        if mark = 'e' || mark = 'E' then (exponent? rest).map fun e => ⟨negative, whole, fraction, some e⟩
        else none

/-- The greatest significand that is kept in full. -/
def greatestSignificand : Nat := wordCount 64 - 1

/-- Appends digits to a significand for as long as it stays within `greatestSignificand`; the digits that
no longer fit are handed back. -/
def appendDigits (significand : Nat) : List Char → Nat × List Char
  | [] => (significand, [])
  | c :: cs =>
    let next := 10 * significand + (c.toNat - '0'.toNat)
    if next ≤ greatestSignificand then appendDigits next cs else (significand, c :: cs)

/-- The floating-point number of a numeral. Digits that do not fit the significand count as zeros; an
exponent beyond 32 bits makes zero or nothing. -/
def Numeral.float? (n : Numeral) : Option Binary64 :=
  let fraction := n.fraction.getD []
  let (wholePart, wholeLeft) := appendDigits 0 n.whole
  let (significand, exponent) : Nat × Int :=
    if wholeLeft.isEmpty then
      let (all, fractionLeft) := appendDigits wholePart fraction
      (all, -((fraction.length - fractionLeft.length : Nat) : Int))
    else
      let (all, fractionLeft) := appendDigits wholePart fraction
      (all, (wholeLeft.length : Int) - (fraction.length - fractionLeft.length : Nat))
  let written := n.exponent.getD 0
  if wordCount 31 ≤ written.natAbs then
    if significand ≠ 0 && 0 < written then none else some (Binary64.zero n.negative)
  else Binary64.ofScaled? n.negative significand (exponent + written)

/-- The number of a numeral: an integer where it is written as one and fits 64 bits, with or without a
sign, and otherwise a floating-point number. Minus zero is one. -/
def Numeral.number? (n : Numeral) : Option Number :=
  let magnitude := Text.digitsValue 10 n.whole
  if n.fraction.isNone && n.exponent.isNone then
    if n.negative then
      if magnitude ≠ 0 && fitsSigned 64 (-(magnitude : Int)) then some (.int (-(magnitude : Int)))
      else n.float?.map .float
    else if fitsUnsigned 64 magnitude then some (.int magnitude)
    else n.float?.map .float
  else n.float?.map .float

/-- The token of a word. -/
def Token.ofWord (word : List Char) : Token :=
  if word = "null".toList then .plain (some .null)
  else if word = "true".toList then .plain (some (.bool true))
  else if word = "false".toList then .plain (some (.bool false))
  else
    match Numeral.ofWord? word with
    | some n => .plain (n.number?.map .number)
    | none => .broken

/-! ## Quoted texts -/

/-- The character behind a backslash and a letter. -/
def unescape? (c : Char) : Option Char :=
  if c = '"' || c = '\\' || c = '/' then some c
  else if c = 'b' then some '\x08'
  else if c = 'f' then some '\x0c'
  else if c = 'n' then some '\n'
  else if c = 'r' then some '\r'
  else if c = 't' then some '\t'
  else none

/-- A part of a quoted text: a character, or a 16-bit unit. -/
inductive Piece where
  /-- A character, by itself or escaped by a letter. -/
  | char (c : Char)
  /-- A unit written as four hexadecimal digits. -/
  | unit (code : Nat)
deriving DecidableEq, Repr

/-- The parts of what stands between two quotes; nothing where an escape is malformed or a control
character stands there raw. -/
def pieces? : List Char → Option (List Piece)
  | [] => some []
  | '\\' :: 'u' :: a :: b :: c :: d :: rest => do
    let code ← Text.digitsValue? 16 [a, b, c, d]
    return .unit code :: (← pieces? rest)
  | '\\' :: c :: rest => do
    let plain ← unescape? c
    return .char plain :: (← pieces? rest)
  | c :: rest =>
    if c = '\\' || c.toNat < 0x20 then none
    else do return .char c :: (← pieces? rest)

/-- Whether a unit is the first half of a surrogate pair. -/
def isLead (code : Nat) : Bool := 0xD800 ≤ code && code < 0xDC00

/-- Whether a unit is the second half of a surrogate pair. -/
def isTrail (code : Nat) : Bool := 0xDC00 ≤ code && code < 0xE000

/-- The characters that the parts denote; nothing where half of a surrogate pair stands alone. -/
def join? : List Piece → Option (List Char)
  | [] => some []
  | .char c :: rest => do return c :: (← join? rest)
  | .unit code :: rest =>
    if isLead code then
      match rest with
      | .unit trail :: rest =>
        if isTrail trail then do
          let c := Char.ofNat (0x10000 + (code - 0xD800) * 0x400 + (trail - 0xDC00))
          return c :: (← join? rest)
        else none
      | _ => none
    else if isTrail code then none
    else do return Char.ofNat code :: (← join? rest)

/-- The token of what stands between two quotes. -/
def Token.ofQuoted (inside : List Char) : Token :=
  match pieces? inside with
  | some pieces => .quoted ((join? pieces).map String.ofList)
  | none => .broken

/-! ## Scanning -/

/-- The tokens of a text. -/
def tokens : List Char → List Token
  | [] => []
  | c :: rest =>
    if isSpace c then tokens rest
    else if c = '"' then
      match h : Text.untilQuote rest with
      | some (inside, after) =>
        have := Text.length_of_untilQuote h
        Token.ofQuoted inside :: tokens after
      | none => [.broken]
    else
      match punctuation? c with
      | some token => token :: tokens rest
      | none =>
        have : (rest.dropWhile isWordChar).length ≤ rest.length :=
          (List.dropWhile_suffix isWordChar).length_le
        Token.ofWord (c :: rest.takeWhile isWordChar) :: tokens (rest.dropWhile isWordChar)
termination_by text => text.length

end CubeSql.Json
