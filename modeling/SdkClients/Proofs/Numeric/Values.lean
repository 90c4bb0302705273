import Mathlib.Algebra.Order.Field.Power
import Mathlib.Data.Int.ConditionallyCompleteOrder
import Mathlib.Data.Rat.Cast.Order
import Mathlib.Order.Compare
import SdkClients.Binary64

set_option autoImplicit false

/-!
What binary numbers stand for.

A finite number stands for a fraction, and an infinity for a place on one side of all fractions.
Not-a-numbers share a place behind everything. Numbers are compared by their patterns, without
decoding them: a larger pattern has a larger magnitude, also across the steps from one exponent to
the next one. So the order of numbers is that of what they stand for.
-/

namespace SdkClients

/-- Where numbers stand: at a fraction, before or after all fractions, or behind everything. -/
abbrev Place := WithTop (WithBot (WithTop ℚ))

namespace Place

def before : Place := WithTop.some ⊥

def of (fraction : ℚ) : Place := WithTop.some (WithBot.some (WithTop.some fraction))

def after : Place := WithTop.some (WithBot.some ⊤)

def behind : Place := ⊤

private theorem before_lt_of (fraction : ℚ) : before < of fraction :=
  WithTop.coe_lt_coe.mpr (WithBot.bot_lt_coe _)

private theorem of_lt_of_iff {left right : ℚ} : of left < of right ↔ left < right := by
  rw [of, of, WithTop.coe_lt_coe, WithBot.coe_lt_coe, WithTop.coe_lt_coe]

private theorem of_lt_after (fraction : ℚ) : of fraction < after :=
  WithTop.coe_lt_coe.mpr (WithBot.coe_lt_coe.mpr (WithTop.coe_lt_top fraction))

private theorem before_lt_after : before < after := (before_lt_of 0).trans (of_lt_after 0)

private theorem after_lt_behind : after < behind := WithTop.coe_lt_top _

end Place

namespace Binary64

/-- The fraction that a finite number stands for. -/
def fraction (number : Binary64) : ℚ :=
  if number.isNegative then -(number.significand * 2 ^ number.exponent)
  else number.significand * 2 ^ number.exponent

/-- What a number stands for. -/
def value (number : Binary64) : Place :=
  if number.isNaN then .behind
  else if number.isInfinite then if number.isNegative then .before else .after
  else .of number.fraction

/-! ### Magnitudes -/

/-- The magnitude of a pattern in multiples of the smallest positive one. -/
def units (pattern : Nat) : Nat :=
  if pattern < fractionBound then pattern
  else (fractionBound + pattern % fractionBound) * 2 ^ (pattern / fractionBound - 1)

private theorem units_lt_succ (pattern : Nat) : units pattern < units (pattern + 1) := by
  have unit : fractionBound = 2 ^ 52 := rfl
  unfold units
  rw [unit]
  by_cases subnormal : pattern + 1 < 2 ^ 52
  · rw [if_pos (by omega), if_pos subnormal]
    exact Nat.lt_succ_self pattern
  · rw [if_neg subnormal]
    by_cases last : pattern < 2 ^ 52
    · -- the smallest normal number follows the largest subnormal one
      have next : pattern + 1 = 2 ^ 52 := by omega
      rw [if_pos last, next]
      omega
    · rw [if_neg last]
      by_cases full : pattern % 2 ^ 52 + 1 = 2 ^ 52
      · -- the fraction starts again and the exponent grows
        have fraction : (pattern + 1) % 2 ^ 52 = 0 := by omega
        have exponent : (pattern + 1) / 2 ^ 52 - 1 = pattern / 2 ^ 52 - 1 + 1 := by omega
        have doubled : 2 ^ (pattern / 2 ^ 52 - 1 + 1) = 2 * 2 ^ (pattern / 2 ^ 52 - 1) :=
          Nat.pow_succ'
        rw [fraction, exponent, doubled, ← Nat.mul_assoc]
        exact Nat.mul_lt_mul_of_pos_right (by omega) (Nat.two_pow_pos _)
      · have fraction : (pattern + 1) % 2 ^ 52 = pattern % 2 ^ 52 + 1 := by omega
        have exponent : (pattern + 1) / 2 ^ 52 = pattern / 2 ^ 52 := by omega
        rw [fraction, exponent]
        exact Nat.mul_lt_mul_of_pos_right (by omega) (Nat.two_pow_pos _)

private theorem units_strictMono : StrictMono units := strictMono_nat_of_lt_succ units_lt_succ

private theorem significand_mul_two_zpow (number : Binary64) :
    (number.significand : ℚ) * 2 ^ number.exponent = units number.pattern * 2 ^ (-1074 : ℤ) := by
  unfold significand exponent units
  by_cases subnormal : number.pattern < fractionBound
  · rw [if_pos subnormal, if_pos subnormal, if_pos subnormal]
  · have field : 1 ≤ number.pattern / fractionBound :=
      (Nat.one_le_div_iff (Nat.two_pow_pos 52)).mpr (Nat.le_of_not_lt subnormal)
    have exponent : ((number.pattern / fractionBound : Nat) : ℤ) - 1075 =
        (number.pattern / fractionBound - 1 : Nat) + (-1074) := by omega
    rw [if_neg subnormal, if_neg subnormal, if_neg subnormal, exponent,
      zpow_add₀ (by norm_num), zpow_natCast, Nat.cast_mul, Nat.cast_pow, Nat.cast_ofNat, mul_assoc]

/-- The fraction with a given key in multiples of the smallest positive one. -/
def signedUnits (key : Int) : Int :=
  if key < 0 then -(units key.natAbs : Int) else units key.natAbs

private theorem signedUnits_strictMono : StrictMono signedUnits := by
  intro left right before
  have rising : ∀ {few many : Nat}, few < many → units few < units many :=
    fun less => units_strictMono less
  unfold signedUnits
  split
  · split
    · have magnitudes : units right.natAbs < units left.natAbs := rising (by omega)
      omega
    · have magnitude : units 0 < units left.natAbs := rising (by omega)
      omega
  · have nonnegative : ¬ right < 0 := by omega
    have magnitudes : units left.natAbs < units right.natAbs := rising (by omega)
    rw [if_neg nonnegative]
    omega

private theorem signedUnits_natCast (pattern : Nat) : signedUnits pattern = units pattern := by
  rw [signedUnits, if_neg (Int.not_lt.mpr (Int.natCast_nonneg pattern)), Int.natAbs_natCast]

private theorem signedUnits_neg_natCast (pattern : Nat) :
    signedUnits (-pattern) = -(units pattern) := by
  cases pattern with
  | zero => rfl
  | succ pattern =>
      have below : -((pattern + 1 : Nat) : Int) < 0 := by omega
      rw [signedUnits, if_pos below, Int.natAbs_neg, Int.natAbs_natCast]

private theorem fraction_eq (number : Binary64) :
    number.fraction = signedUnits number.orderKey * 2 ^ (-1074 : ℤ) := by
  unfold fraction orderKey
  rw [significand_mul_two_zpow]
  cases number.isNegative with
  | false => rw [if_neg Bool.false_ne_true, if_neg Bool.false_ne_true, signedUnits_natCast,
      Int.cast_natCast]
  | true =>
      rw [if_pos rfl, if_pos rfl, signedUnits_neg_natCast, Int.cast_neg, Int.cast_natCast, neg_mul]

/-! ### The order of values -/

/-- Where a number with a given key stands. -/
def place (key : Int) : Place :=
  if key = -(infinityPattern : Int) then .before
  else if key = infinityPattern then .after
  else .of (signedUnits key * 2 ^ (-1074 : ℤ))

private theorem place_lt_behind (key : Int) : place key < .behind := by
  unfold place
  split
  · exact Place.before_lt_after.trans Place.after_lt_behind
  · split
    · exact Place.after_lt_behind
    · exact (Place.of_lt_after _).trans Place.after_lt_behind

private theorem place_strictMonoOn :
    StrictMonoOn place (Set.Icc (-(infinityPattern : Int)) infinityPattern) := by
  rintro left ⟨least, -⟩ right ⟨-, most⟩ less
  have scale : (0 : ℚ) < 2 ^ (-1074 : ℤ) := zpow_pos (by norm_num) _
  have notLast : left ≠ infinityPattern := by omega
  have notFirst : right ≠ -(infinityPattern : Int) := by omega
  unfold place
  rw [if_neg notLast, if_neg notFirst]
  by_cases first : left = -(infinityPattern : Int) <;> by_cases last : right = infinityPattern
  · rw [if_pos first, if_pos last]
    exact Place.before_lt_after
  · rw [if_pos first, if_neg last]
    exact Place.before_lt_of _
  · rw [if_neg first, if_pos last]
    exact Place.of_lt_after _
  · rw [if_neg first, if_neg last]
    refine Place.of_lt_of_iff.mpr (mul_lt_mul_of_pos_right ?_ scale)
    exact Int.cast_lt.mpr (signedUnits_strictMono less)

section Numbers

variable {number : Binary64} (isNumber : number.isNaN = false)

include isNumber

private theorem pattern_le_of_isNumber : number.pattern ≤ infinityPattern :=
  Nat.le_of_not_lt (of_decide_eq_false isNumber)

private theorem orderKey_mem :
    number.orderKey ∈ Set.Icc (-(infinityPattern : Int)) infinityPattern := by
  have most := pattern_le_of_isNumber isNumber
  unfold orderKey
  split <;> constructor <;> omega

private theorem value_eq_place : number.value = place number.orderKey := by
  have most := pattern_le_of_isNumber isNumber
  have apart : 0 < infinityPattern := by decide
  unfold value
  rw [if_neg (ne_true_of_eq_false isNumber)]
  by_cases infinite : number.pattern = infinityPattern
  · have flagged : number.isInfinite = true := beq_iff_eq.mpr infinite
    rw [if_pos flagged, orderKey, infinite]
    cases number.isNegative with
    | false =>
        have different : (infinityPattern : Int) ≠ -(infinityPattern : Int) := by omega
        rw [if_neg Bool.false_ne_true, if_neg Bool.false_ne_true, place, if_neg different,
          if_pos rfl]
    | true => rw [if_pos rfl, if_pos rfl, place, if_pos rfl]
  · have flagged : ¬ number.isInfinite = true := fun infinity => infinite (beq_iff_eq.mp infinity)
    have inside : number.orderKey ≠ -(infinityPattern : Int) ∧
        number.orderKey ≠ infinityPattern := by
      unfold orderKey
      split <;> constructor <;> omega
    rw [if_neg flagged, fraction_eq, place, if_neg inside.1, if_neg inside.2]

private theorem value_lt_behind : number.value < .behind := by
  rw [value_eq_place isNumber]
  exact place_lt_behind _

end Numbers

theorem value_of_isNaN {number : Binary64} (notNumber : number.isNaN = true) :
    number.value = .behind := by
  rw [value, if_pos notNumber]

/-- The order of numbers is the order of what they stand for. -/
theorem order_compares (left right : Binary64) :
    (left.order right).Compares left.value right.value := by
  unfold order
  cases leftNaN : left.isNaN <;> cases rightNaN : right.isNaN <;> simp only
  · rw [value_eq_place leftNaN, value_eq_place rightNaN]
    have keys : (compare left.orderKey right.orderKey).Compares left.orderKey right.orderKey :=
      (compare_iff _ _).mp rfl
    exact (place_strictMonoOn.compares (orderKey_mem leftNaN) (orderKey_mem rightNaN)).mpr keys
  · rw [value_of_isNaN rightNaN]
    exact value_lt_behind leftNaN
  · rw [value_of_isNaN leftNaN]
    exact value_lt_behind rightNaN
  · exact (value_of_isNaN leftNaN).trans (value_of_isNaN rightNaN).symm

/-- Comparisons in which not-a-numbers are equal to each other and greater than all other numbers,
which go by what they stand for. -/
structure OrdersByValue (order : Binary64 → Binary64 → Ordering) : Prop where
  notNumbers : ∀ left right, left.isNaN = true → right.isNaN = true → order left right = .eq
  greater : ∀ left right, left.isNaN = true → right.isNaN = false → order left right = .gt
  less : ∀ left right, left.isNaN = false → right.isNaN = true → order left right = .lt
  numbers : ∀ left right, left.isNaN = false → right.isNaN = false →
    (order left right).Compares left.value right.value

private theorem ordersByValue_order : OrdersByValue order where
  notNumbers left right leftNaN rightNaN := by rw [order, leftNaN, rightNaN]
  greater left right leftNaN rightNaN := by rw [order, leftNaN, rightNaN]
  less left right leftNaN rightNaN := by rw [order, leftNaN, rightNaN]
  numbers left right _ _ := order_compares left right

/-- There is only one such comparison. -/
theorem ordersByValue_iff (other : Binary64 → Binary64 → Ordering) :
    OrdersByValue other ↔ other = order := by
  constructor
  · intro byValue
    funext left right
    cases leftNaN : left.isNaN <;> cases rightNaN : right.isNaN
    · exact (byValue.numbers left right leftNaN rightNaN).inj (order_compares left right)
    · rw [byValue.less left right leftNaN rightNaN,
        ordersByValue_order.less left right leftNaN rightNaN]
    · rw [byValue.greater left right leftNaN rightNaN,
        ordersByValue_order.greater left right leftNaN rightNaN]
    · rw [byValue.notNumbers left right leftNaN rightNaN,
        ordersByValue_order.notNumbers left right leftNaN rightNaN]
  · rintro rfl
    exact ordersByValue_order

/-! ### Equal values -/

private theorem toNat_bits (number : Binary64) :
    number.bits.toNat = number.pattern + if number.isNegative then Nat.pow 2 63 else 0 := by
  have bound : number.bits.toNat < 2 ^ 64 := number.bits.toNat_lt
  have half : Nat.pow 2 63 = 2 ^ 63 := rfl
  unfold pattern isNegative
  rw [half]
  by_cases negative : 2 ^ 63 ≤ number.bits.toNat
  · rw [if_pos (decide_eq_true negative)]
    omega
  · rw [if_neg (ne_true_of_eq_false (decide_eq_false negative))]
    omega

/-- Only the two zeros share a key. -/
private theorem eq_of_orderKey_eq {left right : Binary64} (same : left.orderKey = right.orderKey) :
    left = right ∨ left.isZero = true ∧ right.isZero = true := by
  unfold isZero
  rw [beq_iff_eq, beq_iff_eq]
  unfold orderKey at same
  by_cases zero : left.pattern = 0
  · right
    refine ⟨zero, ?_⟩
    split at same <;> split at same <;> omega
  · left
    have signs : left.isNegative = right.isNegative := by
      cases leftSign : left.isNegative <;> cases rightSign : right.isNegative <;>
        simp only [leftSign, rightSign, if_true, Bool.false_eq_true, if_false] at same ⊢ <;> omega
    have patterns : left.pattern = right.pattern := by
      rw [signs] at same
      split at same <;> omega
    have bits : left.bits.toNat = right.bits.toNat := by
      rw [toNat_bits, toNat_bits, signs, patterns]
    cases left
    cases right
    exact congrArg Binary64.mk (UInt64.toNat_inj.mp bits)

private theorem orderKey_of_isZero {number : Binary64} (zero : number.isZero = true) :
    number.orderKey = 0 := by
  have pattern : number.pattern = 0 := beq_iff_eq.mp zero
  rw [orderKey, pattern]
  split <;> rfl

private theorem isNaN_of_isZero {number : Binary64} (zero : number.isZero = true) :
    number.isNaN = false := by
  have pattern : number.pattern = 0 := beq_iff_eq.mp zero
  rw [isNaN, pattern]
  rfl

/-- A value belongs to one number, except for that of the zeros and that of the not-a-numbers. -/
theorem value_eq_iff (left right : Binary64) :
    left.value = right.value ↔
      left = right ∨ left.isZero = true ∧ right.isZero = true ∨
        left.isNaN = true ∧ right.isNaN = true := by
  constructor
  · intro same
    have equal : left.order right = .eq := (order_compares left right).eq_eq.mpr same
    unfold order at equal
    cases leftNaN : left.isNaN <;> cases rightNaN : right.isNaN <;>
      simp only [leftNaN, rightNaN, reduceCtorEq] at equal
    · rcases eq_of_orderKey_eq (compare_eq_iff_eq.mp equal) with rfl | zeros
      · exact .inl rfl
      · exact .inr (.inl zeros)
    · exact .inr (.inr ⟨rfl, rfl⟩)
  · rintro (rfl | ⟨leftZero, rightZero⟩ | ⟨leftNaN, rightNaN⟩)
    · rfl
    · rw [value_eq_place (isNaN_of_isZero leftZero), value_eq_place (isNaN_of_isZero rightZero),
        orderKey_of_isZero leftZero, orderKey_of_isZero rightZero]
    · exact (value_of_isNaN leftNaN).trans (value_of_isNaN rightNaN).symm

end Binary64

end SdkClients
