import Mathlib.Algebra.Order.Field.Power
import Mathlib.Data.Rat.Cast.Order
import Mathlib.Tactic.FieldSimp
import Mathlib.Tactic.Linarith
import Mathlib.Tactic.Ring
import SdkClients.Decimal.Reading

set_option autoImplicit false

/-!
The size of rounded numbers.

Rounding does not pass a power of two: a quotient of at most `2 ^ 64` is rounded to a number of at
most `2 ^ 64`, and one of at least `1` to a number of at least `1`. Significands have 64 bits, and
powers of ten are at least `1`, so numerals are read as finite numbers or not at all.
-/

namespace SdkClients

namespace Binary64

/-! ### Patterns -/

theorem pattern_ofPattern (negative : Bool) {pattern : Nat} (small : pattern < Nat.pow 2 63) :
    (ofPattern negative pattern).pattern = pattern := by
  have bound : Nat.pow 2 63 = 2 ^ 63 := rfl
  rw [bound] at small
  unfold ofPattern Binary64.pattern
  rw [bound]
  cases negative with
  | false =>
      simp only [Bool.false_eq_true, if_false, UInt64.toNat_ofNat']
      omega
  | true =>
      simp only [if_true, UInt64.toNat_ofNat']
      omega

private theorem infinityPattern_lt : infinityPattern < Nat.pow 2 63 := by decide

private theorem pattern_nearest (negative : Bool) (numerator denominator : Nat) :
    (nearest negative numerator denominator).pattern = nearestPattern numerator denominator := by
  apply pattern_ofPattern
  refine Nat.lt_of_le_of_lt ?_ infinityPattern_lt
  unfold nearestPattern
  split
  · exact Nat.zero_le _
  · exact Nat.min_le_right _ _

theorem isFinite_negate (number : Binary64) : number.negate.isFinite = number.isFinite := by
  have small : number.pattern < Nat.pow 2 63 := Nat.mod_lt _ (Nat.pow_pos (by decide))
  unfold isFinite negate
  rw [pattern_ofPattern _ small]

/-! ### Scaled quotients -/

private theorem two_zpow (scale : Int) :
    (2 : ℚ) ^ scale * (Nat.pow 2 (-scale).toNat : Nat) = (Nat.pow 2 scale.toNat : Nat) := by
  have rising : (Nat.pow 2 scale.toNat : Nat) = (2 ^ scale.toNat : Nat) := rfl
  have falling : (Nat.pow 2 (-scale).toNat : Nat) = (2 ^ (-scale).toNat : Nat) := rfl
  rw [rising, falling, Nat.cast_pow, Nat.cast_pow, Nat.cast_ofNat, ← zpow_natCast, ← zpow_natCast,
    ← zpow_add₀ (by norm_num)]
  congr 1
  omega

private theorem shifted_le_iff (left right : Nat) (scale : Int) :
    left * Nat.pow 2 (-scale).toNat ≤ right * Nat.pow 2 scale.toNat ↔
      (left : ℚ) ≤ right * 2 ^ scale := by
  have positive : (0 : ℚ) < (Nat.pow 2 (-scale).toNat : Nat) := Nat.cast_pos.mpr (Nat.two_pow_pos _)
  rw [← Nat.cast_le (α := ℚ), Nat.cast_mul, Nat.cast_mul, ← two_zpow scale, ← mul_assoc]
  exact mul_le_mul_iff_left₀ positive

private theorem le_shifted_iff (left right : Nat) (scale : Int) :
    right * Nat.pow 2 scale.toNat ≤ left * Nat.pow 2 (-scale).toNat ↔
      right * 2 ^ scale ≤ (left : ℚ) := by
  have positive : (0 : ℚ) < (Nat.pow 2 (-scale).toNat : Nat) := Nat.cast_pos.mpr (Nat.two_pow_pos _)
  rw [← Nat.cast_le (α := ℚ), Nat.cast_mul, Nat.cast_mul, ← two_zpow scale, ← mul_assoc]
  exact mul_le_mul_iff_left₀ positive

variable {numerator denominator : Nat}

private theorem roundHalfEven_le {bound : Nat} (positive : 0 < denominator)
    (most : numerator ≤ bound * denominator) : roundHalfEven numerator denominator ≤ bound := by
  have quotient : numerator / denominator ≤ bound := Nat.div_le_of_le_mul (by rwa [Nat.mul_comm])
  have divided := Nat.div_add_mod numerator denominator
  unfold roundHalfEven
  simp only
  by_cases full : numerator / denominator = bound
  · -- nothing remains, so nothing is rounded up
    rw [full, Nat.mul_comm] at divided
    have none : 2 * (numerator % denominator) < denominator := by omega
    rw [if_pos none]
    exact quotient
  · split
    · exact quotient
    · split
      · omega
      · split <;> omega

private theorem le_roundHalfEven {bound : Nat} (positive : 0 < denominator)
    (least : bound * denominator ≤ numerator) : bound ≤ roundHalfEven numerator denominator := by
  have quotient : bound ≤ numerator / denominator := (Nat.le_div_iff_mul_le positive).mpr least
  unfold roundHalfEven
  simp only
  split
  · exact quotient
  · split
    · omega
    · split <;> omega

/-! ### The leading digit -/

private theorem two_zpow_log2_le {number : Nat} (positive : 0 < number) :
    (2 : ℚ) ^ (number.log2 : Int) ≤ number := by
  rw [zpow_natCast]
  exact_mod_cast Nat.log2_self_le (Nat.ne_of_gt positive)

private theorem lt_two_zpow_log2 (number : Nat) : (number : ℚ) < 2 ^ ((number.log2 : Int) + 1) := by
  have bound : number < 2 ^ (number.log2 + 1) := Nat.lt_log2_self
  rw [← Nat.cast_succ, zpow_natCast]
  exact_mod_cast bound

private theorem leadingExponent_le (denominator : Nat) (top : 0 < numerator) :
    (denominator : ℚ) * 2 ^ leadingExponent numerator denominator ≤ numerator := by
  unfold leadingExponent
  simp only
  split
  · next fits => exact (le_shifted_iff _ _ _).mp fits
  · calc (denominator : ℚ) * 2 ^ ((numerator.log2 : Int) - denominator.log2 - 1)
        ≤ 2 ^ ((denominator.log2 : Int) + 1) *
            2 ^ ((numerator.log2 : Int) - denominator.log2 - 1) := by
          gcongr
          exact (lt_two_zpow_log2 denominator).le
      _ = 2 ^ (numerator.log2 : Int) := by
          rw [← zpow_add₀ (by norm_num)]
          congr 1
          omega
      _ ≤ numerator := two_zpow_log2_le top

private theorem lt_leadingExponent (numerator : Nat) (bottom : 0 < denominator) :
    (numerator : ℚ) < denominator * 2 ^ (leadingExponent numerator denominator + 1) := by
  unfold leadingExponent
  simp only
  split
  · calc (numerator : ℚ) < 2 ^ ((numerator.log2 : Int) + 1) := lt_two_zpow_log2 numerator
      _ = 2 ^ (denominator.log2 : Int) *
            2 ^ ((numerator.log2 : Int) - denominator.log2 + 1) := by
          rw [← zpow_add₀ (by norm_num)]
          congr 1
          omega
      _ ≤ denominator * 2 ^ ((numerator.log2 : Int) - denominator.log2 + 1) := by
          gcongr
          exact two_zpow_log2_le bottom
  · next large =>
      rw [le_shifted_iff, not_le] at large
      rw [Int.sub_add_cancel]
      exact large

/-! ### Rounding a quotient -/

private theorem two_zpow_add_natCast (scale : Int) (steps : Nat) (factor : ℚ) :
    factor * 2 ^ (scale + steps) = (2 ^ steps : Nat) * factor * 2 ^ scale := by
  rw [zpow_add₀ (by norm_num), zpow_natCast, Nat.cast_pow, Nat.cast_ofNat]
  ring

private theorem scaled_le (scale : Int) (steps : Nat) (bottom : 0 < denominator)
    (most : (numerator : ℚ) ≤ denominator * 2 ^ (scale + steps)) :
    roundHalfEven (numerator * Nat.pow 2 (-scale).toNat) (denominator * Nat.pow 2 scale.toNat) ≤
      2 ^ steps := by
  apply roundHalfEven_le (Nat.mul_pos bottom (Nat.two_pow_pos _))
  rw [two_zpow_add_natCast, ← Nat.cast_mul] at most
  rw [← Nat.mul_assoc]
  exact (shifted_le_iff numerator (2 ^ steps * denominator) scale).mpr most

private theorem le_scaled (scale : Int) (steps : Nat) (bottom : 0 < denominator)
    (least : denominator * 2 ^ (scale + steps) ≤ (numerator : ℚ)) :
    2 ^ steps ≤ roundHalfEven (numerator * Nat.pow 2 (-scale).toNat)
      (denominator * Nat.pow 2 scale.toNat) := by
  apply le_roundHalfEven (Nat.mul_pos bottom (Nat.two_pow_pos _))
  rw [two_zpow_add_natCast, ← Nat.cast_mul] at least
  rw [← Nat.mul_assoc]
  exact (le_shifted_iff numerator (2 ^ steps * denominator) scale).mpr least

/-- The pattern of a power of two. -/
def powerPattern (exponent : Nat) : Nat := (exponent + 1023) * fractionBound

private theorem nearestPattern_le {exponent : Nat} (bottom : 0 < denominator)
    (most : (numerator : ℚ) ≤ denominator * 2 ^ (exponent : Int)) :
    nearestPattern numerator denominator ≤ powerPattern exponent := by
  unfold nearestPattern
  split
  · exact Nat.zero_le _
  · next nonzero =>
      have low := leadingExponent_le denominator (Nat.pos_of_ne_zero nonzero)
      have high := lt_leadingExponent numerator bottom
      have wide : (0 : ℚ) < denominator := Nat.cast_pos.mpr bottom
      generalize leadingExponent numerator denominator = leading at low high
      have below : leading ≤ exponent := by
        have powers := (mul_le_mul_iff_right₀ wide).mp (low.trans most)
        exact (zpow_le_zpow_iff_right₀ (by norm_num)).mp powers
      have unit : fractionBound = 2 ^ 52 := rfl
      unfold powerPattern
      simp only
      generalize scaled : max (leading - 52) (-1074) = scale
      refine Nat.le_trans (Nat.min_le_left _ _) ?_
      by_cases full : leading = exponent
      · -- only the power itself has this leading digit
        have reached : scale + (52 : Nat) = exponent := by omega
        have rounded := scaled_le scale 52 bottom (by rw [reached]; exact most)
        have steps : (scale + 1074).toNat = exponent + 1022 := by omega
        calc (scale + 1074).toNat * fractionBound + _
            ≤ (exponent + 1022) * fractionBound + 2 ^ 52 := by
              rw [steps]
              exact Nat.add_le_add_left rounded _
          _ = (exponent + 1023) * fractionBound := by
              rw [unit]
              ring
      · have covered : leading + 1 ≤ scale + (53 : Nat) := by omega
        have rounded := scaled_le scale 53 bottom (high.le.trans (by gcongr; norm_num))
        have steps : (scale + 1074).toNat ≤ exponent + 1021 := by omega
        calc (scale + 1074).toNat * fractionBound + _
            ≤ (exponent + 1021) * fractionBound + 2 ^ 53 :=
              Nat.add_le_add (Nat.mul_le_mul_right fractionBound steps) rounded
          _ = (exponent + 1023) * fractionBound := by
              rw [unit]
              ring

private theorem le_nearestPattern (bottom : 0 < denominator) (least : denominator ≤ numerator) :
    powerPattern 0 ≤ nearestPattern numerator denominator := by
  unfold nearestPattern
  rw [if_neg (by omega)]
  have top : 0 < numerator := by omega
  have low := leadingExponent_le denominator top
  have high := lt_leadingExponent numerator bottom
  have wide : (0 : ℚ) < denominator := Nat.cast_pos.mpr bottom
  generalize leadingExponent numerator denominator = leading at low high
  have above : 0 < leading + 1 := by
    have quotient : (denominator : ℚ) * 2 ^ (0 : Int) < denominator * 2 ^ (leading + 1) := by
      rw [zpow_zero, mul_one]
      exact lt_of_le_of_lt (Nat.cast_le.mpr least) high
    have powers := (mul_lt_mul_iff_right₀ wide).mp quotient
    exact (zpow_lt_zpow_iff_right₀ (by norm_num)).mp powers
  simp only
  have scaled : max (leading - 52) (-1074) = leading - 52 := by omega
  rw [scaled]
  have rounded := le_scaled (leading - 52) 52 bottom (by
    rw [Nat.cast_ofNat, Int.sub_add_cancel]
    exact low)
  have steps : 1022 ≤ (leading - 52 + 1074).toNat := by omega
  have shifted := Nat.mul_le_mul_right fractionBound steps
  have unit : fractionBound = 2 ^ 52 := rfl
  have room : powerPattern 0 ≤ infinityPattern := by decide
  refine Nat.le_min.mpr ⟨?_, room⟩
  unfold powerPattern
  omega

/-! ### Sizes of numbers -/

/-- A number whose magnitude is at most `2 ^ 64`. -/
def Moderate (number : Binary64) : Prop := number.pattern ≤ powerPattern 64

theorem Moderate.isFinite {number : Binary64} (moderate : number.Moderate) :
    number.isFinite = true := by
  have room : powerPattern 64 < infinityPattern := by decide
  exact decide_eq_true (Nat.lt_of_le_of_lt moderate room)

private theorem denominator_pos (number : Binary64) : 0 < number.denominator := Nat.two_pow_pos _

private theorem Moderate.numerator_le {number : Binary64} (moderate : number.Moderate) :
    number.numerator ≤ number.denominator * 2 ^ 64 := by
  have unit : fractionBound = 2 ^ 52 := rfl
  have most : number.pattern ≤ 1087 * 2 ^ 52 := moderate
  have small : number.numerator ≤ 2 ^ 64 := by
    unfold numerator significand exponent
    rw [unit]
    by_cases subnormal : number.pattern < 2 ^ 52
    · rw [if_pos subnormal, if_pos subnormal]
      show number.pattern * 1 ≤ 2 ^ 64
      omega
    · rw [if_neg subnormal, if_neg subnormal]
      by_cases full : number.pattern = 1087 * 2 ^ 52
      · rw [full]
        decide
      · have field : ((number.pattern / 2 ^ 52 : Nat) - 1075 : Int).toNat ≤ 11 := by omega
        calc (2 ^ 52 + number.pattern % 2 ^ 52) * 2 ^ _
            ≤ 2 ^ 53 * 2 ^ 11 :=
              Nat.mul_le_mul (by omega) (Nat.pow_le_pow_right (by decide) field)
          _ = 2 ^ 64 := by decide
  exact Nat.le_trans small (Nat.le_mul_of_pos_left _ number.denominator_pos)

private theorem denominator_le {number : Binary64} (large : powerPattern 0 ≤ number.pattern) :
    number.denominator ≤ number.numerator := by
  have unit : fractionBound = 2 ^ 52 := rfl
  have least : 1023 * 2 ^ 52 ≤ number.pattern := large
  have normal : ¬ number.pattern < 2 ^ 52 := by omega
  have fraction : number.denominator ≤ 2 ^ 52 := by
    unfold denominator exponent
    rw [unit, if_neg normal]
    exact Nat.pow_le_pow_right (by decide) (by omega)
  have significand : 2 ^ 52 ≤ number.significand := by
    unfold Binary64.significand
    rw [unit, if_neg normal]
    exact Nat.le_add_right _ _
  exact (fraction.trans significand).trans (Nat.le_mul_of_pos_right _ (Nat.two_pow_pos _))

private theorem moderate_nearest (negative : Bool) (bottom : 0 < denominator)
    (most : numerator ≤ denominator * 2 ^ 64) :
    (nearest negative numerator denominator).Moderate := by
  unfold Moderate
  rw [pattern_nearest]
  apply nearestPattern_le bottom
  rw [zpow_natCast]
  exact_mod_cast most

private theorem Moderate.dividedBy {left right : Binary64} (moderate : left.Moderate)
    (large : powerPattern 0 ≤ right.pattern) : (left.dividedBy right).Moderate := by
  have divisor := denominator_le large
  have positive : 0 < right.numerator := Nat.lt_of_lt_of_le right.denominator_pos divisor
  apply moderate_nearest _ (Nat.mul_pos left.denominator_pos positive)
  calc left.numerator * right.denominator
      ≤ left.denominator * 2 ^ 64 * right.numerator :=
        Nat.mul_le_mul moderate.numerator_le divisor
    _ = left.denominator * right.numerator * 2 ^ 64 := Nat.mul_right_comm _ _ _

end Binary64

/-! ### Numerals -/

namespace Decimal

open Binary64 (Moderate powerPattern)

private theorem powerOfTen_large (exponent : Nat) :
    powerPattern 0 ≤ (powerOfTen exponent).pattern := by
  unfold powerOfTen
  rw [Binary64.pattern_nearest]
  exact Binary64.le_nearestPattern Nat.one_pos (Nat.pow_pos (by decide))

/-- What is read of a moderate significand is finite. -/
theorem isFinite_of_scaleByTen {number found : Binary64} {exponent : Int}
    (moderate : number.Moderate) (scaled : scaleByTen number exponent = some found) :
    found.isFinite = true := by
  fun_induction scaleByTen number exponent with
  | case1 _ _ _ _ product finite =>
      rw [← Option.some.inj scaled]
      exact finite
  | case2 => cases scaled
  | case3 =>
      cases scaled
      exact (moderate.dividedBy (powerOfTen_large _)).isFinite
  | case4 =>
      cases scaled
      exact moderate.isFinite
  | case5 => cases scaled
  | case6 _ _ _ _ _ ih => exact ih (moderate.dividedBy (powerOfTen_large _)) scaled

theorem moderate_of_lt (negative : Bool) {magnitude : Nat} (fits : magnitude < significandBound) :
    (Binary64.nearest negative magnitude 1).Moderate := by
  apply Binary64.moderate_nearest negative Nat.one_pos
  rw [Nat.one_mul]
  exact Nat.le_of_lt fits

end Decimal

end SdkClients
