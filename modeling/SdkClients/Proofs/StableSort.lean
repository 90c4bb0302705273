import Mathlib.Data.List.Sort
import Mathlib.Order.Compare

set_option autoImplicit false

/-!
Comparisons that put things in line, and sorting by them.

Things that a comparison finds equal need not be the same, so an ascending list of given things can
be arranged in several ways. It is settled once equal things have to stay in the order in which they
came; merge sort finds this arrangement.
-/

namespace SdkClients

variable {α : Type} {order : α → α → Ordering} {agrees : α → α → Bool}

/-! ### Total orders -/

/-- A comparison by which everything has its place. The places of two things are the same exactly
if the things agree. -/
structure TotalOrder (order : α → α → Ordering) (agrees : α → α → Bool) : Prop where
  reflexive : ∀ item, order item item = .eq
  antisymmetric : ∀ left right, order left right ≠ .gt → order right left ≠ .gt →
    agrees left right = true
  transitive : ∀ first second third, order first second ≠ .gt → order second third ≠ .gt →
    order first third ≠ .gt
  total : ∀ left right, order left right ≠ .gt ∨ order right left ≠ .gt
  swapped : ∀ left right, order right left = (order left right).swap
  equal_iff : ∀ left right, order left right = .eq ↔ agrees left right = true
  equivalence : Equivalence fun left right => agrees left right = true

/-- Comparing ranks puts things in line. -/
theorem totalOrder_of_compares {β : Type} [LinearOrder β] (rank : α → β)
    (compares : ∀ left right, (order left right).Compares (rank left) (rank right))
    (same : ∀ left right, agrees left right = true ↔ rank left = rank right) :
    TotalOrder order agrees where
  reflexive item := (compares item item).eq_eq.mpr rfl
  antisymmetric left right below above :=
    (same left right).mpr
      (le_antisymm ((compares left right).ne_gt.mp below) ((compares right left).ne_gt.mp above))
  transitive first second third left right :=
    (compares first third).ne_gt.mpr
      (((compares first second).ne_gt.mp left).trans ((compares second third).ne_gt.mp right))
  total left right := by
    rw [(compares left right).ne_gt, (compares right left).ne_gt]
    exact le_total _ _
  swapped left right :=
    (compares right left).inj (Ordering.compares_swap.mpr (compares left right))
  equal_iff left right := (compares left right).eq_eq.trans (same left right).symm
  equivalence :=
    { refl := fun item => (same item item).mpr rfl
      symm := fun agree => (same _ _).mpr ((same _ _).mp agree).symm
      trans := fun left right => (same _ _).mpr (((same _ _).mp left).trans ((same _ _).mp right)) }

/-! ### Sorting -/

/-- The given things in ascending order. The ones that agree with any one of them come in the order
in which they were given. -/
structure StablySorted (order : α → α → Ordering) (agrees : α → α → Bool)
    (items sorted : List α) : Prop where
  perm : sorted.Perm items
  ascending : sorted.Pairwise fun left right => order left right ≠ .gt
  steady : ∀ item, sorted.filter (agrees item) = items.filter (agrees item)

private theorem TotalOrder.stablySorted_mergeSort (lawful : TotalOrder order agrees)
    (items : List α) :
    StablySorted order agrees items
      (items.mergeSort fun left right => order left right != .gt) := by
  have transitive : ∀ first second third, (order first second != .gt) = true →
      (order second third != .gt) = true → (order first third != .gt) = true := by
    simp only [bne_iff_ne]
    exact lawful.transitive
  have total : ∀ left right, (order left right != .gt || order right left != .gt) = true := by
    simp only [Bool.or_eq_true, bne_iff_ne]
    exact lawful.total
  refine ⟨List.mergeSort_perm _ _, ?_, fun item => ?_⟩
  · exact (List.pairwise_mergeSort transitive total items).imp bne_iff_ne.mp
  · -- what agrees with one thing is in ascending order already
    have ascending : (items.filter (agrees item)).Pairwise
        fun left right => (order left right != .gt) = true := by
      refine List.pairwise_of_forall_mem_list fun left leftIn right rightIn => ?_
      have agree : agrees left right = true :=
        lawful.equivalence.trans (lawful.equivalence.symm (List.mem_filter.mp leftIn).2)
          (List.mem_filter.mp rightIn).2
      rw [(lawful.equal_iff left right).mpr agree]
      rfl
    have kept := (List.sublist_mergeSort transitive total ascending List.filter_sublist).filter
      (agrees item)
    simp only [List.filter_filter, Bool.and_self] at kept
    exact (kept.eq_of_length ((List.mergeSort_perm items _).filter _).length_eq.symm).symm

private theorem TotalOrder.head_le (lawful : TotalOrder order agrees) {head item : α}
    {tail : List α}
    (ascending : (head :: tail).Pairwise fun left right => order left right ≠ .gt)
    (member : item ∈ head :: tail) : order head item ≠ .gt := by
  rcases List.mem_cons.mp member with rfl | inside
  · rw [lawful.reflexive]
    exact Ordering.noConfusion
  · exact List.rel_of_pairwise_cons ascending inside

/-- Ascending lists of the same things differ at most in how they arrange things that agree. -/
private theorem TotalOrder.eq_of_ascending (lawful : TotalOrder order agrees)
    {first second : List α}
    (perm : first.Perm second)
    (firstRises : first.Pairwise fun left right => order left right ≠ .gt)
    (secondRises : second.Pairwise fun left right => order left right ≠ .gt)
    (same : ∀ item, first.filter (agrees item) = second.filter (agrees item)) :
    first = second := by
  induction first generalizing second with
  | nil => exact perm.nil_eq
  | cons head tail ih =>
      cases second with
      | nil => exact perm.eq_nil
      | cons other others =>
          -- both heads are least, so they agree, and each comes first among what agrees with it
          have agree : agrees head other = true := lawful.antisymmetric head other
            (lawful.head_le firstRises (perm.symm.subset List.mem_cons_self))
            (lawful.head_le secondRises (perm.subset List.mem_cons_self))
          have heads := same head
          rw [List.filter_cons_of_pos (lawful.equivalence.refl head),
            List.filter_cons_of_pos agree] at heads
          obtain ⟨rfl, -⟩ := List.cons.inj heads
          refine congrArg (head :: ·) (ih perm.cons_inv firstRises.of_cons secondRises.of_cons ?_)
          intro item
          have filtered := same item
          by_cases counted : agrees item head = true
          · rw [List.filter_cons_of_pos counted, List.filter_cons_of_pos counted] at filtered
            exact List.tail_eq_of_cons_eq filtered
          · rwa [List.filter_cons_of_neg counted, List.filter_cons_of_neg counted] at filtered

theorem TotalOrder.stablySorted_iff (lawful : TotalOrder order agrees) (items sorted : List α) :
    StablySorted order agrees items sorted ↔
      sorted = items.mergeSort fun left right => order left right != .gt := by
  have merged := lawful.stablySorted_mergeSort items
  constructor
  · intro stable
    exact lawful.eq_of_ascending (stable.perm.trans merged.perm.symm) stable.ascending
      merged.ascending fun item => (stable.steady item).trans (merged.steady item).symm
  · rintro rfl
    exact merged

end SdkClients
