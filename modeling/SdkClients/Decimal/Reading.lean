import SdkClients.Binary64

set_option autoImplicit false

/-!
Reading a decimal numeral as a binary number in one pass.

The leading digits are collected into a significand of 64 bits; `absorb` stops at the
first digit that no longer fits. `scaleByTen` then multiplies or divides once by a power
of ten that is itself rounded. The result is within a few units of the exact value, and
not always the number nearest to the numeral.
-/

namespace SdkClients.Decimal

/-- The bound of the collected significand. -/
def significandBound : Nat := Nat.pow 2 64

/-- The largest power of ten that is used in one step. -/
def largestPower : Nat := 308

/-- Appends digits while the significand fits; also gives how many were appended and how
many were left. -/
def absorb : Nat → List Nat → Nat × Nat × Nat
  | significand, [] => (significand, 0, 0)
  | significand, digit :: others =>
      if significand * 10 + digit < significandBound then
        let (total, taken, left) := absorb (significand * 10 + digit) others
        (total, taken + 1, left)
      else (significand, 0, others.length + 1)

/-- The rounded power of ten. -/
def powerOfTen (exponent : Nat) : Binary64 := Binary64.nearest false (Nat.pow 10 exponent) 1

/-- A finite number times a power of ten; nothing when the result is not finite. -/
def scaleByTen (number : Binary64) (exponent : Int) : Option Binary64 :=
  if exponent.natAbs ≤ largestPower then
    if 0 ≤ exponent then
      let product := number.times (powerOfTen exponent.natAbs)
      if product.isFinite then some product else none
    else some (number.dividedBy (powerOfTen exponent.natAbs))
  else if number.isZero then some number
  else if 0 ≤ exponent then none
  else scaleByTen (number.dividedBy (powerOfTen largestPower)) (exponent + (largestPower : Nat))
termination_by (-exponent).toNat
decreasing_by simp only [largestPower] at *; omega

/-- The number nearest to `digits * 10 ^ exponent`; exponents beyond the range of finite
numbers of this many digits give infinity or zero at once. -/
def nearestScientific (negative : Bool) (digits : Nat) (exponent : Int) : Binary64 :=
  let size : Int := (Nat.toDigits 10 digits).length
  if digits = 0 || exponent + size < -400 then Binary64.ofPattern negative 0
  else if 400 < exponent + size then Binary64.ofPattern negative Binary64.infinityPattern
  else Binary64.nearest negative (digits * Nat.pow 10 exponent.toNat) (Nat.pow 10 (-exponent).toNat)

end SdkClients.Decimal
