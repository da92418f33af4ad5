import CubeSql.Number.Binary64

/-!
# The shortest decimal of a binary number

The reals that round to a binary64 number form an interval around it. `Binary64.shortest` is the decimal
with the fewest digits in that interval, and among those the one nearest to the number, a tie going to the
even last digit. `Binary64.text` lays it out: positionally, with at least one decimal, from `10 ^ -5` to
below `10 ^ 16`, and otherwise with an exponent that always shows its sign.
-/

namespace CubeSql

/-- The decimal number `digits * 10 ^ exponent`. -/
structure Decimal where
  /-- The digits, read as one natural number. -/
  digits : Nat
  /-- The power of ten by which they are scaled. -/
  exponent : Int
deriving DecidableEq, Repr, Inhabited

/-- Compares `a * 10 ^ i` with `n * 2 ^ j`, exactly. -/
def Decimal.compareScaled (a : Nat) (i : Int) (n : Nat) (j : Int) : Ordering :=
  compare (a * Nat.pow 10 i.toNat * Nat.pow 2 (-j).toNat) (n * Nat.pow 2 j.toNat * Nat.pow 10 (-i).toNat)

/-- The same number with no zero at the end of its digits; `fuel` bounds the number of zeros dropped. -/
def Decimal.withoutTrailingZeros : Nat → Decimal → Decimal
  | 0, d => d
  | fuel + 1, d =>
    if d.digits ≠ 0 ∧ d.digits % 10 = 0 then
      Decimal.withoutTrailingZeros fuel ⟨d.digits / 10, d.exponent + 1⟩
    else d

namespace Binary64

/-- Whether `d` is among the reals that round to the absolute value of `x`. The gap below a power of two
is half the gap above it, and the ends of the interval round to an even mantissa. -/
def isRoundedFrom (x : Binary64) (d : Decimal) : Bool :=
  let narrowBelow := x.mantissa == Nat.pow 2 52 && leastExponent < x.exponent
  let low := if narrowBelow then 4 * x.mantissa - 1 else 4 * x.mantissa - 2
  let high := 4 * x.mantissa + 2
  let closed := x.mantissa % 2 == 0
  let below := Decimal.compareScaled d.digits d.exponent low (x.exponent - 2)
  let above := Decimal.compareScaled d.digits d.exponent high (x.exponent - 2)
  (below == .gt || (closed && below == .eq)) && (above == .lt || (closed && above == .eq))

/-- The least `k` such that the absolute value is below `10 ^ k`. -/
def decimalScale (x : Binary64) : Int :=
  let guess := Int.fdiv (((x.mantissa.log2 : Int) + x.exponent) * 30103) 100000 - 1
  let fits := fun k : Int => Decimal.compareScaled 1 k x.mantissa x.exponent == .gt
  (([guess, guess + 1, guess + 2, guess + 3] : List Int).find? fits).getD (guess + 4)

/-- The absolute value rounded down to a multiple of `10 ^ grid`, as that multiple. -/
def floorOnGrid (x : Binary64) (grid : Int) : Nat :=
  (x.mantissa * Nat.pow 2 x.exponent.toNat * Nat.pow 10 (-grid).toNat)
    / (Nat.pow 2 (-x.exponent).toNat * Nat.pow 10 grid.toNat)

/-- Of the two neighbours of the absolute value on the grid of `10 ^ grid`, the nearer one that rounds
back to it, if one does. -/
def onGrid? (x : Binary64) (grid : Int) : Option Decimal :=
  let low : Decimal := ⟨x.floorOnGrid grid, grid⟩
  let high : Decimal := ⟨low.digits + 1, grid⟩
  match x.isRoundedFrom low, x.isRoundedFrom high with
  | true, false => some low
  | false, true => some high
  | false, false => none
  | true, true =>
    match Decimal.compareScaled (low.digits + high.digits) grid (2 * x.mantissa) x.exponent with
    | .gt => some low
    | .lt => some high
    | .eq => if low.digits % 2 = 0 then some low else some high

/-- The decimal with the fewest digits that rounds back to the absolute value of `x`. -/
def shortest (x : Binary64) : Decimal :=
  if x.isZero then ⟨0, 0⟩
  else
    let scale := x.decimalScale
    let found := (List.range 17).findSome? fun (n : Nat) => x.onGrid? (scale - (n + 1))
    (found.getD ⟨x.floorOnGrid (scale - 17), scale - 17⟩).withoutTrailingZeros 20

/-! ## Layout -/

/-- Magnitudes from here on are written positionally: `0.00001` has its point five places to the left of
its last digit. -/
def leastPositional : Int := -4

/-- Magnitudes up to here are written positionally: sixteen digits before the point. -/
def greatestPositional : Int := 16

/-- Lays out `digits * 10 ^ exponent`. -/
def layout (d : Decimal) : String :=
  let digits := (Nat.toDigits 10 d.digits)
  let point : Int := digits.length + d.exponent
  if leastPositional ≤ point && point ≤ greatestPositional then
    if point ≤ 0 then String.ofList ("0.".toList ++ List.replicate (-point).toNat '0' ++ digits)
    else if 0 ≤ d.exponent then
      String.ofList (digits ++ List.replicate d.exponent.toNat '0' ++ ".0".toList)
    else String.ofList (digits.take point.toNat ++ '.' :: digits.drop point.toNat)
  else
    let exponent := point - 1
    let sign := if exponent < 0 then '-' else '+'
    let fraction := if digits.length ≤ 1 then [] else '.' :: digits.drop 1
    String.ofList (digits.take 1 ++ fraction ++ 'e' :: sign :: Nat.toDigits 10 exponent.natAbs)

/-- The text of a number: a minus sign if it has one, then its shortest decimal. -/
def text (x : Binary64) : String :=
  let magnitude := if x.isZero then "0.0" else layout x.shortest
  if x.negative then "-" ++ magnitude else magnitude

end Binary64

end CubeSql
