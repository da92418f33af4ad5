/-!
# Binary floating-point numbers

A finite binary64 number is kept exactly, as a sign and `mantissa * 2 ^ exponent`, so that reading and
writing decimals are questions about natural numbers. Every number of this module comes out of
`Binary64.ofRatio?`, which rounds a quotient of naturals to the nearest number and a tie to the even
mantissa; `ofDecimal?` rounds a decimal once, and `ofScaled?` rounds a significand first and its scaling
by a power of ten afterwards.
-/

namespace CubeSql

/-- A finite binary64 number `± mantissa * 2 ^ exponent`. Numbers produced by rounding have
`mantissa < 2 ^ 53` and the least exponent from `-1074` on that this allows. -/
structure Binary64 where
  /-- Whether the number carries a minus sign; zero may. -/
  negative : Bool
  /-- The binary digits. -/
  mantissa : Nat
  /-- The power of two by which they are scaled. -/
  exponent : Int
deriving DecidableEq, Repr, Inhabited

namespace Binary64

/-- The exponent of the numbers closest to zero. -/
def leastExponent : Int := -1074

/-- The exponent of the numbers furthest from zero. -/
def greatestExponent : Int := 971

/-- Zero, with a sign. -/
def zero (negative : Bool) : Binary64 := ⟨negative, 0, leastExponent⟩

/-- Whether the number is zero, whatever its sign. -/
def isZero (x : Binary64) : Bool := x.mantissa == 0

/-- Equality of values: the two zeros are equal. -/
def sameValue (x y : Binary64) : Bool := x == y || (x.isZero && y.isZero)

/-- The quotient rounded to the nearest natural number, a tie going to the even one. -/
def roundedQuotient (num den : Nat) : Nat :=
  let quotient := num / den
  let rest := num % den
  if 2 * rest < den then quotient
  else if den < 2 * rest then quotient + 1
  else quotient + quotient % 2

/-- The binary order of magnitude of `num / den`: the greatest `e` with `2 ^ e ≤ num / den`. -/
def magnitude (num den : Nat) : Int :=
  let e : Int := (num.log2 : Int) - den.log2
  if den * Nat.pow 2 e.toNat ≤ num * Nat.pow 2 (-e).toNat then e else e - 1

/-- The binary64 number nearest to `num / den`, or nothing where that is beyond all of them. -/
def ofRatio? (negative : Bool) (num den : Nat) : Option Binary64 :=
  if num = 0 then some (zero negative)
  else
    let exponent := max leastExponent (magnitude num den - 52)
    let mantissa := roundedQuotient (num * Nat.pow 2 (-exponent).toNat) (den * Nat.pow 2 exponent.toNat)
    let x : Binary64 :=
      if mantissa = Nat.pow 2 53 then ⟨negative, Nat.pow 2 52, exponent + 1⟩
      else ⟨negative, mantissa, exponent⟩
    if greatestExponent < x.exponent then none else some x

/-- The numerator of the absolute value as a quotient of naturals. -/
def numerator (x : Binary64) : Nat := x.mantissa * Nat.pow 2 x.exponent.toNat

/-- The denominator of the absolute value as a quotient of naturals. -/
def denominator (x : Binary64) : Nat := Nat.pow 2 (-x.exponent).toNat

/-- The product, rounded; nothing where it is too great. -/
def mul? (x y : Binary64) : Option Binary64 :=
  ofRatio? (x.negative != y.negative) (x.numerator * y.numerator) (x.denominator * y.denominator)

/-- The quotient, rounded; nothing where it is too great. -/
def div? (x y : Binary64) : Option Binary64 :=
  ofRatio? (x.negative != y.negative) (x.numerator * y.denominator) (x.denominator * y.numerator)

/-- The number nearest to `± significand * 10 ^ exponent`, rounded once. Exponents far out of range
are answered without forming the power. -/
def ofDecimal? (negative : Bool) (significand : Nat) (exponent : Int) : Option Binary64 :=
  let digits : Int := (Nat.toDigits 10 significand).length
  if significand = 0 || digits + exponent < -400 then some (zero negative)
  else if 400 < digits + exponent then none
  else ofRatio? negative (significand * Nat.pow 10 exponent.toNat) (Nat.pow 10 (-exponent).toNat)

/-! ## Scaling in rounded steps -/

/-- The greatest power of ten with a binary64 number next to it. -/
def greatestTenPower : Nat := 308

/-- The number nearest to `10 ^ k`. -/
def tenPower? (k : Nat) : Option Binary64 := ofRatio? false (Nat.pow 10 k) 1

/-- Divides by `10 ^ greatestTenPower` the given number of times, rounding each quotient. A zero stays. -/
def loweredBy : Nat → Binary64 → Option Binary64
  | 0, x => some x
  | steps + 1, x =>
    if x.isZero then some x
    else ((tenPower? greatestTenPower).bind x.div?).bind (loweredBy steps)

/-- Scales a number by `10 ^ exponent`, rounding after every step: one product, or quotients by at
most `10 ^ 308` each. Nothing where the result is too great. -/
def scaled? (x : Binary64) (exponent : Int) : Option Binary64 :=
  if 0 ≤ exponent then
    if exponent ≤ greatestTenPower then (tenPower? exponent.toNat).bind x.mul?
    else if x.isZero then some x else none
  else
    let steps := (exponent.natAbs - 1) / greatestTenPower
    (x.loweredBy steps).bind fun y =>
      (tenPower? (exponent.natAbs - steps * greatestTenPower)).bind y.div?

/-- The number for `± significand * 10 ^ exponent`: the significand is rounded first, then scaled. -/
def ofScaled? (negative : Bool) (significand : Nat) (exponent : Int) : Option Binary64 :=
  match ofRatio? false significand 1 with
  | some x => (x.scaled? exponent).map fun y => { y with negative := negative }
  | none => none

end Binary64

end CubeSql
