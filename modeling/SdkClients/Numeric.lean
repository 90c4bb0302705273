import SdkClients.Binary64
import SdkClients.Json.Value

set_option autoImplicit false

/-!
Numbers of literals.

A number is an integer of 64 bits, kept exactly, or a binary number. In the order every
integer comes before every binary number, whatever their values.
-/

namespace SdkClients

/-- The number of a literal. -/
inductive Numeric where
  | integer (value : Int64)
  | real (value : Binary64)
deriving DecidableEq, Repr, Inhabited

namespace Numeric

/-- Integers by value, then binary numbers by value with not-a-numbers last. -/
def order : Numeric → Numeric → Ordering
  | .integer left, .integer right => compare left.toInt right.toInt
  | .integer _, .real _ => .lt
  | .real _, .integer _ => .gt
  | .real left, .real right => left.order right

/-- Equality of values: both zeros are equal, and so are all not-a-numbers. -/
def agrees : Numeric → Numeric → Bool
  | .integer left, .integer right => left == right
  | .real left, .real right => left.order right == .eq
  | _, _ => false

/-- Sorts in ascending order; equal numbers keep their places relative to one another. -/
def sort (numbers : List Numeric) : List Numeric :=
  numbers.mergeSort fun left right => left.order right != .gt

/-- The bounds of 64-bit integers. -/
def fitsInteger (value : Int) : Bool := -Int.pow 2 63 ≤ value && value < Int.pow 2 63

/-- The literal's number for a number of a document: integers that fit 64 bits stay exact,
and others become the nearest binary number. -/
def ofNumber : Json.Number → Numeric
  | .integer value =>
      if fitsInteger value then .integer (Int64.ofInt value) else .real (Binary64.ofInt value)
  | .real value => .real value

/-- The number as a document value; without a decimal form it is null. -/
def toJson : Numeric → Json.Value
  | .integer value => .number (.integer value.toInt)
  | .real value => if value.isFinite then .number (.real value) else .null

end Numeric

end SdkClients
