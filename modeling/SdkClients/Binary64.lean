set_option autoImplicit false

/-!
Binary floating-point numbers of 64 bits, held as their bit patterns.

A finite pattern stands for `significand * 2 ^ exponent`. Every operation decodes its
operands into that form, works on exact natural numbers, and rounds once with
`nearest`; a tie goes to the even pattern. The order puts every not-a-number last
and compares all other patterns by value, so both zeros are equal in it.
-/

namespace SdkClients

/-- A 64-bit floating-point number, identified by its bits. -/
structure Binary64 where
  bits : UInt64
deriving DecidableEq, Repr, Inhabited

namespace Binary64

/-- The number of patterns of one sign that share an exponent field. -/
def fractionBound : Nat := Nat.pow 2 52

/-- The pattern of positive infinity, and the bound of the finite patterns. -/
def infinityPattern : Nat := 2047 * fractionBound

/-- Whether the sign bit is set. -/
def isNegative (number : Binary64) : Bool := Nat.pow 2 63 ≤ number.bits.toNat

/-- The bits without the sign. -/
def pattern (number : Binary64) : Nat := number.bits.toNat % Nat.pow 2 63

/-- Infinite or not a number: no such pattern has a decimal form. -/
def isFinite (number : Binary64) : Bool := number.pattern < infinityPattern

def isNaN (number : Binary64) : Bool := infinityPattern < number.pattern

def isZero (number : Binary64) : Bool := number.pattern == 0

def isInfinite (number : Binary64) : Bool := number.pattern == infinityPattern

/-- The number with a sign and a pattern below `2 ^ 63`. -/
def ofPattern (negative : Bool) (pattern : Nat) : Binary64 :=
  ⟨UInt64.ofNat (pattern + if negative then Nat.pow 2 63 else 0)⟩

def infinity : Binary64 := ofPattern false infinityPattern

def notANumber : Binary64 := ofPattern false (infinityPattern + Nat.pow 2 51)

/-- The other sign, also of zeros, infinities and not-a-numbers. -/
def negate (number : Binary64) : Binary64 :=
  ofPattern (!number.isNegative) number.pattern

def absolute (number : Binary64) : Binary64 := ofPattern false number.pattern

/-! ### Decoding -/

/-- The whole number that a finite pattern scales by a power of two. -/
def significand (number : Binary64) : Nat :=
  if number.pattern < fractionBound then number.pattern
  else fractionBound + number.pattern % fractionBound

/-- The power of two that scales the significand of a finite pattern. -/
def exponent (number : Binary64) : Int :=
  if number.pattern < fractionBound then -1074
  else (number.pattern / fractionBound : Nat) - 1075

/-- The magnitude of a finite number is `numerator / denominator`. -/
def numerator (number : Binary64) : Nat := number.significand * Nat.pow 2 number.exponent.toNat

def denominator (number : Binary64) : Nat := Nat.pow 2 (-number.exponent).toNat

/-! ### Rounding -/

/-- The quotient rounded to the nearest whole number, a tie to the even one. -/
def roundHalfEven (numerator denominator : Nat) : Nat :=
  let quotient := numerator / denominator
  let twice := 2 * (numerator % denominator)
  if twice < denominator then quotient
  else if denominator < twice then quotient + 1
  else if quotient % 2 = 0 then quotient else quotient + 1

/-- The exponent of the leading binary digit of a positive quotient. -/
def leadingExponent (numerator denominator : Nat) : Int :=
  let estimate : Int := (numerator.log2 : Int) - (denominator.log2 : Int)
  if denominator * Nat.pow 2 estimate.toNat ≤ numerator * Nat.pow 2 (-estimate).toNat then
    estimate
  else estimate - 1

/-- The pattern nearest to `numerator / denominator`; past the finite range it is infinity. -/
def nearestPattern (numerator denominator : Nat) : Nat :=
  if numerator = 0 then 0
  else
    let scale := max (leadingExponent numerator denominator - 52) (-1074)
    let rounded := roundHalfEven (numerator * Nat.pow 2 (-scale).toNat)
      (denominator * Nat.pow 2 scale.toNat)
    min ((scale + 1074).toNat * fractionBound + rounded) infinityPattern

/-- The number nearest to the quotient, with the given sign. -/
def nearest (negative : Bool) (numerator denominator : Nat) : Binary64 :=
  ofPattern negative (nearestPattern numerator denominator)

/-- The number nearest to a whole number. -/
def ofInt (value : Int) : Binary64 := nearest (value < 0) value.natAbs 1

/-! ### Arithmetic -/

/-- The product of two finite numbers. -/
def times (left right : Binary64) : Binary64 :=
  nearest (left.isNegative != right.isNegative)
    (left.numerator * right.numerator) (left.denominator * right.denominator)

/-- The quotient of a finite number and a finite number that is not zero. -/
def dividedBy (left right : Binary64) : Binary64 :=
  nearest (left.isNegative != right.isNegative)
    (left.numerator * right.denominator) (left.denominator * right.numerator)

/-- The signed numerator of a finite number over `2 ^ 1074`. -/
private def scaledNumerator (number : Binary64) : Int :=
  let magnitude : Int := (number.significand * Nat.pow 2 (number.exponent + 1074).toNat : Nat)
  if number.isNegative then -magnitude else magnitude

/-- The sum. Opposite infinities have none; opposite numbers give positive zero. -/
def plus (left right : Binary64) : Binary64 :=
  if left.isNaN || right.isNaN then notANumber
  else if left.isInfinite then
    if right.isInfinite && left.isNegative != right.isNegative then notANumber else left
  else if right.isInfinite then right
  else
    let sum := left.scaledNumerator + right.scaledNumerator
    if sum = 0 then ofPattern (left.isNegative && right.isNegative) 0
    else nearest (sum < 0) sum.natAbs (Nat.pow 2 1074)

def minus (left right : Binary64) : Binary64 := left.plus right.negate

/-- The least whole number that is not below a finite number. -/
def ceiling (number : Binary64) : Int :=
  if number.isNegative then -((number.numerator / number.denominator : Nat) : Int)
  else ((number.numerator + number.denominator - 1) / number.denominator : Nat)

/-! ### Order -/

/-- A whole number that grows with the value; both zeros have key zero. -/
def orderKey (number : Binary64) : Int :=
  if number.isNegative then -(number.pattern : Int) else number.pattern

/-- By value, except that all not-a-numbers are equal and come last. -/
def order (left right : Binary64) : Ordering :=
  match left.isNaN, right.isNaN with
  | true, true => .eq
  | true, false => .gt
  | false, true => .lt
  | false, false => compare left.orderKey right.orderKey

end Binary64

end SdkClients
