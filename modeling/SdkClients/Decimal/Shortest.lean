import SdkClients.Binary64

set_option autoImplicit false

/-!
The fewest decimal digits that identify a finite binary number.

The numbers that round to `significand * 2 ^ exponent` form an interval. `digits` tries
grids of one, two, … up to seventeen digits; on each it tests the two grid points beside
the value. The first grid with a point in the interval gives the answer, and of two such
points the nearer one, a tie going to the even digit.
-/

namespace SdkClients.Decimal

/-- The positive number `digits * 10 ^ exponent`. -/
structure Scientific where
  digits : Nat
  exponent : Int
deriving DecidableEq, Repr

/-- Compares `digits * 10 ^ ten` with `whole * 2 ^ two`, exactly. -/
def compareScaled (digits : Nat) (ten : Int) (whole : Nat) (two : Int) : Ordering :=
  compare (digits * Nat.pow 10 ten.toNat * Nat.pow 2 (-two).toNat)
    (whole * Nat.pow 2 two.toNat * Nat.pow 10 (-ten).toNat)

/-- Below a power of two the neighbour is half as far away as above it. -/
def narrowBelow (number : Binary64) : Bool :=
  number.significand == Binary64.fractionBound && -1074 < number.exponent

/-- Whether a decimal lies among the values that round to a positive finite number. -/
def identifies (number : Binary64) (candidate : Scientific) : Bool :=
  let lower := if narrowBelow number then 4 * number.significand - 1 else 4 * number.significand - 2
  let upper := 4 * number.significand + 2
  let endsIncluded := number.significand % 2 == 0
  let atLower := compareScaled candidate.digits candidate.exponent lower (number.exponent - 2)
  let atUpper := compareScaled candidate.digits candidate.exponent upper (number.exponent - 2)
  (atLower == .gt || endsIncluded && atLower == .eq) &&
    (atUpper == .lt || endsIncluded && atUpper == .eq)

/-- The least `k` with the number below `10 ^ k`, searched upward from a lower estimate. -/
def scaleFrom (number : Binary64) : Nat → Int → Int
  | 0, estimate => estimate
  | steps + 1, estimate =>
      if compareScaled 1 estimate number.significand number.exponent == .gt then estimate
      else scaleFrom number steps (estimate + 1)

/-- The power of ten just above a positive finite number. The estimate from the binary
logarithm is at most three steps too low. -/
def scale (number : Binary64) : Int :=
  let binary := number.exponent + number.significand.log2
  scaleFrom number 4 (Int.fdiv (binary * 30103) 100000 - 1)

/-- The grid point at or below the number, on the grid of multiples of `10 ^ grid`. -/
def floorOn (number : Binary64) (grid : Int) : Nat :=
  number.numerator * Nat.pow 10 (-grid).toNat / (number.denominator * Nat.pow 10 grid.toNat)

/-- The better of the two grid points beside the number, if one identifies it. -/
def onGrid (number : Binary64) (grid : Int) : Option Scientific :=
  let below := floorOn number grid
  let low : Scientific := ⟨below, grid⟩
  let high : Scientific := ⟨below + 1, grid⟩
  match 0 < below && identifies number low, identifies number high with
  | true, true =>
      match compareScaled (2 * below + 1) grid (2 * number.significand) number.exponent with
      | .gt => some low
      | .lt => some high
      | .eq => some (if below % 2 = 0 then low else high)
  | true, false => some low
  | false, true => some high
  | false, false => none

/-- Trailing zeros moved into the exponent; the fuel is the number of digits. -/
def stripZeros : Nat → Scientific → Scientific
  | 0, number => number
  | steps + 1, number =>
      if number.digits % 10 = 0 then stripZeros steps ⟨number.digits / 10, number.exponent + 1⟩
      else number

/-- The shortest decimal of a positive finite number; should no grid of seventeen digits
have one, its exact value. -/
def shortest (number : Binary64) : Scientific :=
  let top := scale number
  let found := (List.range 17).findSome? fun count => onGrid number (top - (count + 1 : Nat))
  let chosen := found.getD ⟨number.numerator * Nat.pow 5 (-number.exponent).toNat,
    -((-number.exponent).toNat : Int)⟩
  stripZeros 20 chosen

end SdkClients.Decimal
