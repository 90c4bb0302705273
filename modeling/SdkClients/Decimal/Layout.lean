import SdkClients.Decimal.Shortest

set_option autoImplicit false

/-!
How a decimal number is written: positionally or with an exponent.

`Layout` holds the decisions of one format, and `Layout.render` applies them to the
shortest digits of a number.
-/

namespace SdkClients.Decimal

/-- The decisions of a format for decimal numbers. -/
structure Layout where
  /-- The least exponent of the leading digit that is still written positionally. -/
  plainFrom : Int
  /-- The first exponent of the leading digit that is written with an exponent. -/
  plainBelow : Int
  /-- The mark in front of an exponent that is not negative. -/
  risingMark : String
  /-- The mark in front of the digits of a negative exponent. -/
  fallingMark : String
  /-- What a whole number gets after its digits when it is written positionally. -/
  wholeEnd : String
deriving DecidableEq, Repr

/-- Numbers of documents are positional from `1e-5` up to `1e16`, a whole number keeps
`.0`, and an exponent always carries its sign. -/
def documentLayout : Layout where
  plainFrom := -5
  plainBelow := 16
  risingMark := "e+"
  fallingMark := "e-"
  wholeEnd := ".0"

/-- The digits of a positive decimal in the positional form. -/
def Layout.positional (layout : Layout) (digits : List Char) (point : Int) : String :=
  if point ≤ 0 then
    String.ofList ("0.".toList ++ List.replicate (-point).toNat '0' ++ digits)
  else if digits.length ≤ point.toNat then
    String.ofList (digits ++ List.replicate (point.toNat - digits.length) '0') ++ layout.wholeEnd
  else
    String.ofList (digits.take point.toNat ++ '.' :: digits.drop point.toNat)

/-- The digits of a positive decimal with the exponent of its leading digit. -/
def Layout.scientific (layout : Layout) (digits : List Char) (leading : Int) : String :=
  let mantissa := match digits with
    | [] => []
    | [single] => [single]
    | first :: others => first :: '.' :: others
  let mark := if leading < 0 then layout.fallingMark else layout.risingMark
  String.ofList mantissa ++ mark ++ toString leading.natAbs

/-- A positive decimal in the form that its leading exponent asks for. -/
def Layout.write (layout : Layout) (number : Scientific) : String :=
  let digits := Nat.toDigits 10 number.digits
  let point : Int := digits.length + number.exponent
  if layout.plainFrom ≤ point - 1 && point - 1 < layout.plainBelow then
    layout.positional digits point
  else
    layout.scientific digits (point - 1)

/-- A finite number, zeros and signs included. -/
def Layout.render (layout : Layout) (number : Binary64) : String :=
  let magnitude :=
    if number.isZero then "0" ++ layout.wholeEnd else layout.write (shortest number.absolute)
  if number.isNegative then "-" ++ magnitude else magnitude

end SdkClients.Decimal
