import CubeSql.Document.Node
import CubeSql.Number.Word
import CubeSql.Text.Digits

/-!
# Plain scalars

What an unquoted scalar denotes: the absent value, a truth value, a number, or else itself as a text.
Wherever a text is expected, it reads as it is spelled.
-/

namespace CubeSql.Yaml

/-- What stands after an optional plus sign. -/
def withoutPlus : List Char → List Char
  | '+' :: rest => rest
  | text => text

/-- The natural number that unsigned digits make: in base 16, 8 or 2 after their marks, and otherwise
decimal without leading zeros. -/
def natural? : List Char → Option Nat
  | '0' :: 'x' :: digits => Text.digitsValue? 16 digits
  | '0' :: 'o' :: digits => Text.digitsValue? 8 digits
  | '0' :: 'b' :: digits => Text.digitsValue? 2 digits
  | '0' :: _ :: _ => none
  | digits => Text.digitsValue? 10 digits

/-- The integer that a scalar writes. -/
def integer? : List Char → Option Int
  | '-' :: rest => (natural? rest).map fun n => -(n : Int)
  | text => (natural? (withoutPlus text)).map fun n => (n : Int)

/-- Whether a scalar is a row of digits with needless leading zeros, such as a code. -/
def isCode (text : List Char) : Bool :=
  let digits : List Char :=
    match text with
    | '-' :: rest => rest
    | text => withoutPlus text
  digits.length > 1 && digits.head? == some '0' && digits.all Char.isDigit

/-- The exponent after its mark: an optional sign and digits. -/
def exponent? : List Char → Option Int
  | '-' :: digits => (Text.digitsValue? 10 digits).map fun n => -(n : Int)
  | text => (Text.digitsValue? 10 (withoutPlus text)).map fun n => (n : Int)

/-- The floating-point number that an unsigned decimal writes: digits with an optional point anywhere among
them, and an optional exponent. Nothing where it is beyond all floating-point numbers. -/
def unsignedFloat? (negative : Bool) (text : List Char) : Option Binary64 := do
  let isMark (c : Char) : Bool := c = 'e' || c = 'E'
  let significand := text.takeWhile fun c => !isMark c
  let whole := significand.takeWhile (· ≠ '.')
  let fraction := (significand.drop whole.length).drop 1
  let digits ← Text.digitsValue? 10 (whole ++ fraction)
  let power ← match text.drop significand.length with
    | [] => pure 0
    | _ :: exponent => exponent? exponent
  Binary64.ofDecimal? negative digits (power - fraction.length)

/-- The floating-point number that a scalar writes. -/
def float? : List Char → Option Binary64
  | '-' :: rest => unsignedFloat? true rest
  | text => unsignedFloat? false (withoutPlus text)

/-- The spellings of the absent value. -/
def nullNames : List String := ["", "~", "null", "Null", "NULL"]

/-- The spellings of what is true. -/
def trueNames : List String := ["true", "True", "TRUE"]

/-- The spellings of what is false. -/
def falseNames : List String := ["false", "False", "FALSE"]

/-- The spellings of infinities and of what is no number. -/
def nonFiniteNames : List String :=
  [".inf", ".Inf", ".INF", "+.inf", "+.Inf", "+.INF", "-.inf", "-.Inf", "-.INF", ".nan", ".NaN", ".NAN"]

/-- The floating-point number or text that a scalar denotes which is no integer. -/
def floatOrText (spelling : String) : Scalar :=
  if isCode spelling.toList then .text spelling
  else
    match float? spelling.toList with
    | some x => .number (.float x)
    | none => .text spelling

/-- What a plain scalar with a finite value denotes; nothing where it is an integer that fits no 64 bits. -/
def denoted (spelling : String) : Option Scalar :=
  if spelling ∈ nullNames then some .null
  else if spelling ∈ trueNames then some (.bool true)
  else if spelling ∈ falseNames then some (.bool false)
  else
    match integer? spelling.toList with
    | some n =>
      if fitsWord 64 n then some (.number (.int n))
      else if fitsWord 128 n then none
      else some (floatOrText spelling)
    | none => some (floatOrText spelling)

/-- The node of a plain scalar. -/
def plainNode (spelling : String) : Node :=
  if spelling ∈ nonFiniteNames then .nonFinite (some spelling) else .scalar (denoted spelling) (some spelling)

/-- The node of a place where nothing is written. -/
def emptyNode : Node := plainNode ""

end CubeSql.Yaml
