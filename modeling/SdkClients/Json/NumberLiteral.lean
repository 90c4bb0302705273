import SdkClients.Json.Cursor
import SdkClients.Json.Value
import SdkClients.Decimal.Reading

set_option autoImplicit false

/-!
Number literals.

A literal has a sign, whole digits, and possibly a fraction and an exponent. `numeral`
takes it apart, and `Numeral.value` says which number it stands for: an integer when it
has neither fraction nor exponent and fits 64 bits, and otherwise a binary number.
-/

namespace SdkClients.Json

/-- The digits after the exponent mark, with their sign and the place where they start. -/
structure ExponentPart where
  negative : Bool
  digits : List Nat
  start : Position
deriving Repr

/-- A number literal taken apart. -/
structure Numeral where
  negative : Bool
  whole : List Nat
  fraction : Option (List Nat)
  exponent : Option ExponentPart
deriving Repr

namespace Numeral

/-- The bound of the exponent's own digits. -/
def exponentBound : Nat := Nat.pow 2 31

/-- The value of an exponent's digits, or the place after the digit that is too much. -/
def exponentValue : Nat → Position → List Nat → Except Position Nat
  | total, _, [] => .ok total
  | total, place, digit :: others =>
      let place := ⟨place.line, place.column + 1⟩
      if total * 10 + digit < exponentBound then exponentValue (total * 10 + digit) place others
      else .error place

/-- A magnitude with its sign; integers that do not fit 64 bits become binary numbers, and
so does a zero with a minus sign. -/
def integerValue (negative : Bool) (magnitude : Nat) : Number :=
  if !negative then .integer magnitude
  else if 0 < magnitude ∧ magnitude ≤ Nat.pow 2 63 then .integer (-magnitude)
  else .real (Binary64.nearest true magnitude 1)

/-- The number that a literal stands for; the place is where the literal ends. -/
def value (numeral : Numeral) (stop : Position) : Except Malformed Number :=
  let (significand, _, leftOver) := Decimal.absorb 0 numeral.whole
  if numeral.fraction.isNone && numeral.exponent.isNone && leftOver == 0 then
    .ok (integerValue numeral.negative significand)
  else
    let (significand, appended, _) := Decimal.absorb significand (numeral.fraction.getD [])
    let scaled (exponent : Int) : Except Malformed Number :=
      match Decimal.scaleByTen (Binary64.nearest false significand 1) exponent with
      | some magnitude => .ok (.real (if numeral.negative then magnitude.negate else magnitude))
      | none => .error ⟨.numberOutOfRange, stop⟩
    let base : Int := leftOver - appended
    match numeral.exponent with
    | none => scaled base
    | some part =>
        match exponentValue 0 part.start part.digits with
        | .ok exponent => scaled (if part.negative then base - exponent else base + exponent)
        | .error place =>
            if significand = 0 ∨ part.negative then
              .ok (.real (Binary64.ofPattern numeral.negative 0))
            else .error ⟨.numberOutOfRange, place⟩

end Numeral

namespace NumberLiteral

/-- Where the text ends although a digit has to follow, reading waits for a value and
skipping refuses the number. -/
def missingDigits {α : Type} (cursor : Cursor) : Scanned α :=
  ⟨.error (cursor.faultHere .endInValue), .error (cursor.faultHere .invalidNumber)⟩

/-- The exponent after its mark. -/
def exponent (cursor : Cursor) : Scanned (ExponentPart × Cursor) :=
  let (negative, cursor) := match cursor.left with
    | '-' :: _ => (true, cursor.next)
    | '+' :: _ => (false, cursor.next)
    | _ => (false, cursor)
  match cursor.left with
  | [] => missingDigits cursor
  | first :: _ =>
      if first.isDigit then
        let (digits, after) := cursor.digits
        ⟨.ok (⟨negative, digits, cursor.place⟩, after), .ok after⟩
      else .refused (cursor.faultAhead .invalidNumber)

/-- What may follow the digits: an exponent, or the end of the literal. -/
def finish (numeral : Numeral) (cursor : Cursor) : Scanned Number :=
  let marked := match cursor.left with
    | 'e' :: _ => true
    | 'E' :: _ => true
    | _ => false
  if marked then
    let scanned := exponent cursor.next
    ⟨scanned.read.bind fun (part, after) => Numeral.value { numeral with exponent := part } after.place,
      scanned.skip⟩
  else ⟨numeral.value cursor.place, .ok cursor⟩

/-- What may follow the whole digits: a fraction, an exponent, or the end. -/
def afterWhole (negative : Bool) (whole : List Nat) (cursor : Cursor) : Scanned Number :=
  match cursor.left with
  | '.' :: _ =>
      let point := cursor.next
      match point.digits with
      | ([], _) =>
          match point.left with
          | [] => missingDigits point
          | _ :: _ => .refused (point.faultAhead .invalidNumber)
      | (fraction, after) => finish ⟨negative, whole, some fraction, none⟩ after
  | _ => finish ⟨negative, whole, none, none⟩ cursor

/-- A literal without its sign; a zero has to stand alone before the point. -/
def unsigned (negative : Bool) (cursor : Cursor) : Scanned Number :=
  match cursor.left with
  | [] => missingDigits cursor
  | '0' :: second :: _ =>
      if second.isDigit then .refused (cursor.next.faultAhead .invalidNumber)
      else afterWhole negative [0] cursor.next
  | first :: _ =>
      if first.isDigit then
        let (whole, after) := cursor.digits
        afterWhole negative whole after
      else .refused (cursor.faultAhead .invalidNumber)

/-- The literal at the cursor, which stands at a digit or a minus sign. -/
def scan (cursor : Cursor) : Scanned Number :=
  match cursor.left with
  | '-' :: _ => unsigned true cursor.next
  | _ => unsigned false cursor

end NumberLiteral

end SdkClients.Json
