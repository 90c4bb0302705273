import SdkClients.Proofs.Fallible
import SdkClients.Proofs.Json.Spelled

set_option autoImplicit false

/-!
Integer literals.

The digits of an integer are collected one after the other as long as the result fits 64 bits. What
fits is the integer itself, except behind a minus sign, where only 64 bits with a sign are kept and
a zero is real. What does not fit is real.
-/

namespace SdkClients

namespace Decimal

open Nat (ofDigitChars)

private theorem le_ofDigitChars (digits : List Char) (start : Nat) :
    start ≤ ofDigitChars 10 digits start := by
  rw [Nat.ofDigitChars_eq_ofDigitChars_zero]
  have grown : start ≤ 10 ^ digits.length * start :=
    Nat.le_mul_of_pos_left start (Nat.pow_pos (by decide))
  omega

private theorem absorb_of_lt {digits : List Char} {start : Nat}
    (fits : ofDigitChars 10 digits start < significandBound) :
    absorb start (digits.map fun character => character.toNat - '0'.toNat) =
      (ofDigitChars 10 digits start, digits.length, 0) := by
  induction digits generalizing start with
  | nil => simp [absorb]
  | cons digit digits ih =>
      rw [Nat.ofDigitChars_cons, Nat.mul_comm] at fits ⊢
      have next := Nat.lt_of_le_of_lt (le_ofDigitChars digits _) fits
      rw [List.map_cons, absorb, if_pos next, ih fits]
      rfl

private theorem absorb_of_le {digits : List Char} {start : Nat} (filled : digits ≠ [])
    (large : significandBound ≤ ofDigitChars 10 digits start) :
    (absorb start (digits.map fun character => character.toNat - '0'.toNat)).2.2 ≠ 0 := by
  induction digits generalizing start with
  | nil => exact absurd rfl filled
  | cons digit digits ih =>
      rw [Nat.ofDigitChars_cons, Nat.mul_comm] at large
      rw [List.map_cons, absorb]
      by_cases fits : start * 10 + (digit.toNat - '0'.toNat) < significandBound
      · rw [if_pos fits]
        cases digits with
        | nil =>
            rw [Nat.ofDigitChars_nil] at large
            exact absurd fits (Nat.not_lt.mpr large)
        | cons second digits => exact ih (List.cons_ne_nil _ _) large
      · rw [if_neg fits]
        exact Nat.succ_ne_zero _

private theorem absorb_lt {start : Nat} (digits : List Nat) (fits : start < significandBound) :
    (absorb start digits).1 < significandBound := by
  induction digits generalizing start with
  | nil => exact fits
  | cons digit digits ih =>
      rw [absorb]
      by_cases next : start * 10 + digit < significandBound
      · rw [if_pos next]
        exact ih next
      · rw [if_neg next]
        exact fits

end Decimal

namespace Json

/-- An integer of 64 bits, with or without a sign, or a finite real. -/
def Number.IsRead : Number → Prop
  | .integer value => -Int.pow 2 63 ≤ value ∧ value < Int.pow 2 64
  | .real value => value.isFinite = true

private theorem Number.isRead_integer_iff {value : Int} :
    (Number.integer value).IsRead ↔ -2 ^ 63 ≤ value ∧ value < 2 ^ 64 := Iff.rfl

namespace Numeral

private theorem isRead_integerValue (negative : Bool) {magnitude : Nat}
    (fits : magnitude < Decimal.significandBound) : (integerValue negative magnitude).IsRead := by
  unfold integerValue
  have bound : Decimal.significandBound = 2 ^ 64 := rfl
  cases negative with
  | false =>
      rw [if_pos (by decide), Number.isRead_integer_iff]
      omega
  | true =>
      rw [if_neg (by decide)]
      split
      · next small =>
          have half : Nat.pow 2 63 = 2 ^ 63 := rfl
          rw [half] at small
          rw [Number.isRead_integer_iff]
          omega
      · exact (Decimal.moderate_of_lt true fits).isFinite

private theorem isFinite_ofPattern_zero (negative : Bool) :
    (Binary64.ofPattern negative 0).isFinite = true := by
  cases negative <;> decide

private theorem isFinite_signed (negative : Bool) {magnitude : Binary64}
    (finite : magnitude.isFinite = true) :
    (if negative then magnitude.negate else magnitude).isFinite = true := by
  cases negative with
  | false => exact finite
  | true => exact (Binary64.isFinite_negate magnitude).trans finite

/-- Apart from integers with neither fraction nor exponent, all literals are real. -/
private theorem value_cases (numeral : Numeral) (stop : Position) :
    (numeral.fraction = none ∧ numeral.exponent = none ∧
      (Decimal.absorb 0 numeral.whole).2.2 = 0 ∧
      numeral.value stop =
        .ok (integerValue numeral.negative (Decimal.absorb 0 numeral.whole).1)) ∨
      ∀ number, numeral.value stop = .ok number →
        ∃ real, number = .real real ∧ real.isFinite = true := by
  have whole : (Decimal.absorb 0 numeral.whole).1 < Decimal.significandBound :=
    Decimal.absorb_lt _ (by decide)
  have significand := Decimal.absorb_lt (numeral.fraction.getD []) whole
  have scaled : ∀ exponent magnitude,
      Decimal.scaleByTen (Binary64.nearest false (Decimal.absorb (Decimal.absorb 0 numeral.whole).1
        (numeral.fraction.getD [])).1 1) exponent = some magnitude → magnitude.isFinite = true :=
    fun _ _ found =>
      Decimal.isFinite_of_scaleByTen (Decimal.moderate_of_lt false significand) found
  unfold value
  simp only
  split
  · next plain =>
      simp only [Bool.and_eq_true, Option.isNone_iff_eq_none, beq_iff_eq] at plain
      exact .inl ⟨plain.1.1, plain.1.2, plain.2, rfl⟩
  · refine .inr ?_
    intro number read
    split at read
    · split at read
      · next magnitude found =>
          cases read
          exact ⟨_, rfl, isFinite_signed _ (scaled _ _ found)⟩
      · cases read
    · split at read
      · split at read
        · next magnitude found =>
            cases read
            exact ⟨_, rfl, isFinite_signed _ (scaled _ _ found)⟩
        · cases read
      · split at read
        · cases read
          exact ⟨_, rfl, isFinite_ofPattern_zero _⟩
        · cases read

/-- Every number that is read is a finite real, or an integer that fits. -/
theorem isRead_of_value {numeral : Numeral} {stop : Position} {number : Number}
    (read : numeral.value stop = .ok number) : number.IsRead := by
  rcases numeral.value_cases stop with ⟨-, -, -, integer⟩ | real
  · rw [integer] at read
    cases read
    exact isRead_integerValue _ (Decimal.absorb_lt _ (by decide))
  · obtain ⟨real, rfl, finite⟩ := real number read
    exact finite

end Numeral

namespace Spelling

theorem number_ofInteger_of_lt (negative : Bool) {magnitude : Nat}
    (fits : magnitude < Decimal.significandBound) :
    (ofInteger negative magnitude).number = some (Numeral.integerValue negative magnitude) := by
  have digits : Nat.ofDigitChars 10 (Nat.toDigits 10 magnitude) 0 < Decimal.significandBound := by
    rw [Nat.ofDigitChars_ten_toDigits]
    exact fits
  have absorbed := Decimal.absorb_of_lt digits
  rw [Nat.ofDigitChars_ten_toDigits] at absorbed
  have read : ((ofInteger negative magnitude).numeral .start).value .start =
      .ok (Numeral.integerValue negative magnitude) := by
    show Numeral.value ⟨negative, (Nat.toDigits 10 magnitude).map _, none, none⟩ .start = _
    unfold Numeral.value
    rw [absorbed]
    rfl
  rw [number, read]
  rfl

theorem number_ofInteger_of_le {negative : Bool} {magnitude : Nat} {found : Number}
    (large : Decimal.significandBound ≤ magnitude)
    (read : (ofInteger negative magnitude).number = some found) : ∃ real, found = .real real := by
  have digits : Decimal.significandBound ≤
      Nat.ofDigitChars 10 (Nat.toDigits 10 magnitude) 0 := by
    rw [Nat.ofDigitChars_ten_toDigits]
    exact large
  have left := Decimal.absorb_of_le Nat.toDigits_ne_nil digits
  rcases ((ofInteger negative magnitude).numeral .start).value_cases .start with
    ⟨-, -, none, -⟩ | real
  · exact absurd none left
  · obtain ⟨binary, same, -⟩ := real found (toOption_eq_some_iff.mp read)
    exact ⟨binary, same⟩

theorem number_of_isReal {spelling : Spelling} (real : spelling.IsReal) {found : Number}
    (read : spelling.number = some found) : ∃ binary, found = .real binary := by
  rcases (spelling.numeral .start).value_cases .start with ⟨whole, plain, -, -⟩ | binary
  · have noFraction := Option.map_eq_none_iff.mp whole
    have noExponent := Option.map_eq_none_iff.mp plain
    rcases real with fraction | exponent
    · rw [noFraction] at fraction
      cases fraction
    · rw [noExponent] at exponent
      cases exponent
  · obtain ⟨binary, same, -⟩ := binary found (toOption_eq_some_iff.mp read)
    exact ⟨binary, same⟩

/-- What was read as an integer is read as the same one again. -/
theorem number_ofInteger_of_isRead {value : Int} (read : (Number.integer value).IsRead) :
    (ofInteger (value < 0) value.natAbs).number = some (.integer value) := by
  have bound : Decimal.significandBound = 2 ^ 64 := rfl
  have half : Nat.pow 2 63 = 2 ^ 63 := rfl
  obtain ⟨least, most⟩ := Number.isRead_integer_iff.mp read
  rw [number_ofInteger_of_lt _ (by omega), Numeral.integerValue]
  by_cases negative : value < 0
  · have fits : 0 < value.natAbs ∧ value.natAbs ≤ Nat.pow 2 63 := by omega
    rw [decide_eq_true negative, if_neg (by decide), if_pos fits]
    have same : -(value.natAbs : Int) = value := by omega
    rw [same]
  · rw [decide_eq_false negative, if_pos (by decide)]
    have same : (value.natAbs : Int) = value := by omega
    rw [same]

end Spelling

end Json

end SdkClients
