import SdkClients.Decimal.Reading
import SdkClients.Json.Printer

set_option autoImplicit false

/-!
Numbers of filters.

A 64-bit integer is calculated with exactly as long as the results fit. Any other number
keeps the text in which it was written until someone calculates with it, and then it
becomes the nearest binary number.
-/

namespace SdkClients.Jq

/-- A number in a filter: a small integer, a calculated one, or one that is still text. -/
inductive Number where
  | whole (value : Int)
  | real (value : Binary64)
  | written (text : String)
deriving DecidableEq, Repr

namespace Number

/-- Whether an integer fits 64 bits. -/
def fits (value : Int) : Bool := -Int.pow 2 63 ≤ value && value < Int.pow 2 63

/-- An integer result; one that does not fit becomes a binary number. -/
def ofInt (value : Int) : Number :=
  if fits value then .whole value else .real (Binary64.ofInt value)

/-- The digits in front of a character list. -/
def leadingDigits (characters : List Char) : List Nat :=
  (characters.takeWhile Char.isDigit).map fun digit => digit.toNat - '0'.toNat

/-- The whole number with the given decimal digits. -/
def ofDigits (digits : List Nat) : Nat := digits.foldl (fun total digit => 10 * total + digit) 0

/-- The exponent that a character list consists of, after its mark. -/
def exponentOf : List Char → Int
  | '-' :: others => -(ofDigits (leadingDigits others) : Int)
  | '+' :: others => ofDigits (leadingDigits others)
  | others => ofDigits (leadingDigits others)

/-- The binary number nearest to an unsigned numeral. -/
def nearestUnsigned (negative : Bool) (characters : List Char) : Binary64 :=
  let whole := leadingDigits characters
  let others := characters.dropWhile Char.isDigit
  let (fraction, others) := match others with
    | '.' :: tail => (leadingDigits tail, tail.dropWhile Char.isDigit)
    | _ => ([], others)
  let exponent := match others with
    | 'e' :: tail => exponentOf tail
    | 'E' :: tail => exponentOf tail
    | _ => 0
  Decimal.nearestScientific negative (ofDigits (whole ++ fraction)) (exponent - fraction.length)

/-- The binary number nearest to a numeral. -/
def nearest (text : String) : Binary64 :=
  match text.toList with
  | '-' :: others => nearestUnsigned true others
  | characters => nearestUnsigned false characters

/-- The number that a numeral of a filter stands for. -/
def ofNumeral (text : String) : Number :=
  if text.toList.all Char.isDigit then
    let value : Int := ofDigits (leadingDigits text.toList)
    if fits value then .whole value else .written text
  else .written text

/-- The number as a binary number. -/
def toBinary : Number → Binary64
  | .whole value => Binary64.ofInt value
  | .real value => value
  | .written text => nearest text

/-- The opposite number. -/
def negate : Number → Number
  | .whole value => ofInt (-value)
  | number => .real number.toBinary.negate

/-- The sum; integers are added exactly if the sum fits. -/
def plus : Number → Number → Number
  | .whole left, .whole right =>
      if fits (left + right) then .whole (left + right)
      else .real ((Binary64.ofInt left).plus (Binary64.ofInt right))
  | left, right => .real (left.toBinary.plus right.toBinary)

/-- The difference; integers are subtracted exactly if the difference fits. -/
def minus : Number → Number → Number
  | .whole left, .whole right =>
      if fits (left - right) then .whole (left - right)
      else .real ((Binary64.ofInt left).minus (Binary64.ofInt right))
  | left, right => .real (left.toBinary.minus right.toBinary)

/-- The number without its sign. -/
def absolute : Number → Number
  | .whole value => ofInt value.natAbs
  | number => .real number.toBinary.absolute

/-- The order of numbers: a not-a-number comes before everything, also before itself. -/
def order : Number → Number → Ordering
  | .whole left, .whole right => compare left right
  | left, right =>
      let left := left.toBinary
      let right := right.toBinary
      if left.isNaN then .lt else if right.isNaN then .gt else left.order right

/-- How many steps of a given size lead from one number to another one or past it. -/
def stepsBetween (first past step : Number) : Nat :=
  let distance := (past.minus first).toBinary
  let step := step.toBinary
  if distance.isFinite && step.isFinite && !step.isZero then (distance.dividedBy step).ceiling.toNat
  else 0

/-- The text of a number; without a decimal form it is null. -/
def render : Number → String
  | .whole value => toString value
  | .real value => Json.renderReal value
  | .written text => text

end Number

end SdkClients.Jq
