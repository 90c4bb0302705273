import Mathlib.Data.Sum.Order
import SdkClients.Numeric
import SdkClients.Proofs.Numeric.Values
import SdkClients.Proofs.StableSort

set_option autoImplicit false

/-!
The order of the numbers of literals.

Every number has a rank: integers rank by value, before all binary numbers, and binary numbers rank
by what they stand for. Comparing numbers compares their ranks, whatever the bits are, and numbers
of the same rank are those that count as equal. So the order is total, and sorting by it leaves no
choice.
-/

namespace SdkClients.Numeric

/-- Where a number stands among all numbers. -/
def rank : Numeric → ℤ ⊕ₗ Place
  | .integer value => toLex (.inl value.toInt)
  | .real value => toLex (.inr value.value)

/-- Numbers that count as equal: the same one, both zeros, or two not-a-numbers. -/
inductive Same : Numeric → Numeric → Prop
  | self (number : Numeric) : Same number number
  | zeros {left right : Binary64} : left.isZero = true → right.isZero = true →
      Same (.real left) (.real right)
  | notNumbers {left right : Binary64} : left.isNaN = true → right.isNaN = true →
      Same (.real left) (.real right)

private theorem order_compares (left right : Numeric) :
    (left.order right).Compares left.rank right.rank := by
  cases left with
  | integer left =>
      cases right with
      | integer right =>
          have strict : StrictMono fun value : ℤ => (toLex (.inl value) : ℤ ⊕ₗ Place) :=
            fun _ _ less => Sum.Lex.inl_lt_inl_iff.mpr less
          exact strict.compares.mpr ((compare_iff _ _).mp rfl)
      | real right => exact Sum.Lex.inl_lt_inr _ _
  | real left =>
      cases right with
      | integer right => exact Sum.Lex.inl_lt_inr _ _
      | real right =>
          have strict : StrictMono fun place : Place => (toLex (.inr place) : ℤ ⊕ₗ Place) :=
            fun _ _ less => Sum.Lex.inr_lt_inr_iff.mpr less
          exact strict.compares.mpr (left.order_compares right)

private theorem rank_eq_iff (left right : Numeric) : left.rank = right.rank ↔ left.Same right := by
  constructor
  · intro same
    cases left with
    | integer left =>
        cases right with
        | integer right =>
            have values : left = right := Int64.toInt_inj.mp (Sum.inl.inj (toLex.injective same))
            exact values ▸ .self _
        | real right => cases toLex.injective same
    | real left =>
        cases right with
        | integer right => cases toLex.injective same
        | real right =>
            rcases (Binary64.value_eq_iff left right).mp (Sum.inr.inj (toLex.injective same)) with
              rfl | ⟨leftZero, rightZero⟩ | ⟨leftNaN, rightNaN⟩
            · exact .self _
            · exact .zeros leftZero rightZero
            · exact .notNumbers leftNaN rightNaN
  · intro same
    cases same with
    | self => rfl
    | zeros left right =>
        have values := (Binary64.value_eq_iff _ _).mpr (.inr (.inl ⟨left, right⟩))
        exact congrArg (toLex ∘ Sum.inr) values
    | notNumbers left right =>
        have values := (Binary64.value_eq_iff _ _).mpr (.inr (.inr ⟨left, right⟩))
        exact congrArg (toLex ∘ Sum.inr) values

private theorem agrees_iff (left right : Numeric) :
    left.agrees right = true ↔ left.rank = right.rank := by
  rw [← (order_compares left right).eq_eq]
  cases left <;> cases right <;>
    simp only [agrees, order, beq_iff_eq, compare_eq_iff_eq, Int64.toInt_inj, reduceCtorEq,
      Bool.false_eq_true]

private theorem totalOrder_order : TotalOrder order agrees :=
  totalOrder_of_compares rank order_compares agrees_iff

/-- Exactly the not-a-numbers come after all numbers. -/
private theorem isNaN_iff_last (binary : Binary64) :
    binary.isNaN = true ↔ ∀ number : Numeric, number.order (.real binary) ≠ .gt := by
  constructor
  · intro notNumber number
    have last : (real binary).rank = toLex (.inr ⊤) :=
      congrArg (toLex ∘ Sum.inr) (Binary64.value_of_isNaN notNumber)
    refine (order_compares number (.real binary)).ne_gt.mpr ?_
    rw [last]
    cases number with
    | integer value => exact (Sum.Lex.inl_lt_inr _ _).le
    | real value => exact Sum.Lex.inr_le_inr_iff.mpr le_top
  · intro last
    cases isNaN : binary.isNaN with
    | true => rfl
    | false =>
        -- a not-a-number would come after it
        have after : Binary64.notANumber.order binary = .gt := by
          have flagged : Binary64.notANumber.isNaN = true := by decide
          rw [Binary64.order, flagged, isNaN]
        exact absurd after (last (.real Binary64.notANumber))

/-- The order of numbers is total, and numbers are equal in it exactly if they are the same number,
both zeros or two not-a-numbers. It goes by rank: integers by value, before all binary numbers,
which go by what they stand for; the not-a-numbers come last. For binary numbers no other order
does that. Stable sorting has one result for every list, the one that `sort` gives. -/
theorem order_lawful :
    TotalOrder order agrees ∧
      (∀ compare, Binary64.OrdersByValue compare ↔
        compare = fun left right => (real left).order (real right)) ∧
      (∀ left right : Numeric, (left.order right).Compares left.rank right.rank) ∧
      (∀ left right : Numeric, left.agrees right = true ↔ left.Same right) ∧
      (∀ (whole : Int64) (binary : Binary64), (integer whole).order (.real binary) = .lt) ∧
      (∀ binary : Binary64,
        binary.isNaN = true ↔ ∀ number : Numeric, number.order (.real binary) ≠ .gt) ∧
      ∀ numbers sorted : List Numeric,
        StablySorted order agrees numbers sorted ↔ sorted = sort numbers := by
  refine ⟨totalOrder_order, Binary64.ordersByValue_iff, order_compares, fun left right => ?_,
    fun _ _ => rfl, isNaN_iff_last, totalOrder_order.stablySorted_iff⟩
  rw [agrees_iff, rank_eq_iff]

end SdkClients.Numeric
