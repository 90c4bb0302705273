import Mathlib.Data.List.Nodup
import SdkClients.Json.Value

set_option autoImplicit false

/-! Pairs in which no key is repeated, and values in whose objects none is: for them nothing is lost when
keys are collapsed. -/

namespace SdkClients

namespace Keyed

variable {κ α : Type}

/-- Other values under the same names. -/
theorem distinct_map_iff {β : Type} {f : α → β} {entries : List (κ × α)} :
    Distinct (entries.map fun entry => (entry.1, f entry.2)) ↔ Distinct entries := by
  unfold Distinct
  rw [List.map_map]
  rfl

theorem distinct_middle_iff {before after : List (κ × α)} {key : κ} {value : α} :
    Distinct (before ++ (key, value) :: after) ↔
      key ∉ (before ++ after).map (·.1) ∧ Distinct (before ++ after) :=
  ((List.perm_middle.map _).nodup_iff).trans List.nodup_cons

/-- Leaving out some of the names makes none of the others occur twice. -/
theorem Distinct.filterMap {β : Type} {entries : List (κ × α)} (distinct : Distinct entries)
    (f : α → Option β) :
    Distinct (entries.filterMap fun entry => (f entry.2).map fun value => (entry.1, value)) := by
  refine List.Nodup.sublist ?_ distinct
  induction entries with
  | nil => exact .slnil
  | cons entry entries ih =>
      obtain ⟨-, later⟩ := List.nodup_cons.mp distinct
      cases kept : f entry.2 with
      | none =>
          rw [List.filterMap_cons_none (by rw [kept]; rfl)]
          exact .cons _ (ih later)
      | some value =>
          rw [List.filterMap_cons_some (by rw [kept]; rfl)]
          exact .cons_cons _ (ih later)

variable [DecidableEq κ]

instance (entries : List (κ × α)) : Decidable (Distinct entries) :=
  inferInstanceAs (Decidable (entries.map (·.1)).Nodup)

theorem get?_iff_of_distinct {entries : List (κ × α)} (distinct : Distinct entries) {name : κ}
    {value : α} : get? entries name = some value ↔ (name, value) ∈ entries := by
  induction entries with
  | nil => simp [get?]
  | cons entry entries ih =>
      obtain ⟨fresh, later⟩ := List.nodup_cons.mp distinct
      rw [get?_cons, List.mem_cons]
      by_cases here : entry.1 = name
      · subst here
        have outside : (entry.1, value) ∉ entries := fun member =>
          fresh (List.mem_map.mpr ⟨_, member, rfl⟩)
        simp only [if_true, Option.some.injEq, outside, or_false, Prod.ext_iff, true_and, eq_comm]
      · have different : (name, value) ≠ entry := fun same => here (same ▸ rfl)
        simp only [here, if_false, ih later, different, false_or]

theorem get?_eq_none_iff {entries : List (κ × α)} {name : κ} :
    get? entries name = none ↔ name ∉ entries.map (·.1) := by
  simp only [get?, Option.map_eq_none_iff, List.find?_eq_none, beq_iff_eq, List.mem_map,
    not_exists, not_and]

theorem put_of_fresh {name : κ} (value : α) {entries : List (κ × α)}
    (fresh : name ∉ entries.map (·.1)) : put name value entries = entries ++ [(name, value)] := by
  induction entries with
  | nil => rfl
  | cons entry entries ih =>
      rw [List.map_cons, List.mem_cons, not_or] at fresh
      obtain ⟨different, later⟩ := fresh
      rw [put, if_neg (Ne.symm different), ih later, List.cons_append]

private theorem foldl_put_of_distinct (entries pairs : List (κ × α))
    (distinct : Distinct (entries ++ pairs)) :
    pairs.foldl (fun entries pair => put pair.1 pair.2 entries) entries = entries ++ pairs := by
  induction pairs generalizing entries with
  | nil => rw [List.foldl_nil, List.append_nil]
  | cons pair pairs ih =>
      have regrouped : entries ++ pair :: pairs = (entries ++ [pair]) ++ pairs := by simp
      have fresh : pair.1 ∉ entries.map (·.1) := by
        unfold Distinct at distinct
        rw [List.map_append, List.nodup_append] at distinct
        intro known
        exact distinct.2.2 pair.1 known pair.1 (by simp) rfl
      rw [regrouped] at distinct ⊢
      rw [List.foldl_cons, put_of_fresh pair.2 fresh]
      exact ih _ distinct

theorem ofList_of_distinct {pairs : List (κ × α)} (distinct : Distinct pairs) :
    ofList pairs = pairs :=
  foldl_put_of_distinct [] pairs distinct

private theorem mem_names_put {name other : κ} {value : α} {entries : List (κ × α)} :
    other ∈ (put name value entries).map (·.1) ↔ other = name ∨ other ∈ entries.map (·.1) := by
  induction entries with
  | nil => simp [put]
  | cons entry entries ih =>
      rw [put]
      by_cases same : entry.1 = name
      · simp only [same, if_true, List.map_cons, List.mem_cons, or_self_left]
      · simp only [same, if_false, List.map_cons, List.mem_cons, ih]
        exact or_left_comm

private theorem Distinct.put {entries : List (κ × α)} (distinct : Distinct entries) (name : κ)
    (value : α) : Distinct (put name value entries) := by
  induction entries with
  | nil => exact List.nodup_singleton name
  | cons entry entries ih =>
      obtain ⟨fresh, later⟩ := List.nodup_cons.mp distinct
      rw [Keyed.put]
      by_cases same : entry.1 = name
      · rw [if_pos same]
        exact List.nodup_cons.mpr ⟨fresh, later⟩
      · rw [if_neg same]
        refine List.nodup_cons.mpr ⟨fun known => ?_, ih later⟩
        exact (mem_names_put.mp known).elim same fresh

theorem distinct_ofList (pairs : List (κ × α)) : Distinct (ofList pairs) :=
  List.foldlRecOn pairs _ List.nodup_nil fun _ distinct pair _ => distinct.put pair.1 pair.2

private theorem mem_of_mem_put {name : κ} {value : α} {entries : List (κ × α)}
    {entry : κ × α} (member : entry ∈ put name value entries) :
    entry = (name, value) ∨ entry ∈ entries := by
  induction entries with
  | nil => exact .inl (List.mem_singleton.mp member)
  | cons first entries ih =>
      rw [put] at member
      by_cases same : first.1 = name
      · rw [if_pos same] at member
        rcases List.mem_cons.mp member with rfl | later
        · exact .inl (Prod.ext same rfl)
        · exact .inr (List.mem_cons_of_mem first later)
      · rw [if_neg same] at member
        rcases List.mem_cons.mp member with rfl | later
        · exact .inr List.mem_cons_self
        · exact (ih later).imp_right (List.mem_cons_of_mem first)

/-- Putting pairs one after the other makes up no entries. -/
theorem ofList_subset (pairs : List (κ × α)) : ofList pairs ⊆ pairs := by
  refine List.foldlRecOn (motive := (· ⊆ pairs)) pairs _ (List.nil_subset pairs) ?_
  intro entries known pair member entry found
  rcases mem_of_mem_put found with rfl | earlier
  · exact member
  · exact known earlier

theorem get?_perm {entries others : List (κ × α)} (distinct : Distinct entries)
    (same : entries.Perm others) : get? entries = get? others := by
  funext name
  induction same with
  | nil => rfl
  | cons entry _ ih =>
      rw [get?_cons, get?_cons, ih (List.nodup_cons.mp distinct).2]
  | swap first second entries =>
      have different : second.1 ≠ first.1 := fun same =>
        (List.nodup_cons.mp distinct).1 (List.mem_cons.mpr (.inl same))
      simp only [get?_cons]
      by_cases here : second.1 = name
      · have other : first.1 ≠ name := fun same => different (here.trans same.symm)
        rw [if_pos here, if_neg other, if_pos here]
      · rw [if_neg here, if_neg here]
  | trans first _ ihFirst ihSecond =>
      exact (ihFirst distinct).trans (ihSecond ((first.map _).nodup_iff.mp distinct))

/-- An entry under a new key is found under this key only. -/
theorem get?_middle {before after : List (κ × α)} {key : κ} {value : α}
    (fresh : key ∉ before.map (·.1)) (name : κ) :
    get? (before ++ (key, value) :: after) name =
      if key = name then some value else get? (before ++ after) name := by
  induction before with
  | nil => exact get?_cons _ _ _
  | cons entry before ih =>
      rw [List.map_cons, List.mem_cons, not_or] at fresh
      obtain ⟨different, later⟩ := fresh
      rw [List.cons_append, get?_cons, ih later, List.cons_append, get?_cons]
      by_cases here : entry.1 = name
      · have other : key ≠ name := fun same => different (same.trans here.symm)
        rw [if_pos here, if_neg other, if_pos here]
      · rw [if_neg here, if_neg here]

end Keyed

namespace Json

/-- No object inside a value repeats a key. -/
inductive Value.DistinctKeys : Value → Prop
  | null : DistinctKeys .null
  | bool (value : Bool) : DistinctKeys (.bool value)
  | number (value : Number) : DistinctKeys (.number value)
  | string (text : String) : DistinctKeys (.string text)
  | array {items : List Value} : (∀ item ∈ items, DistinctKeys item) → DistinctKeys (.array items)
  | object {entries : List (String × Value)} : Keyed.Distinct entries →
      (∀ entry ∈ entries, DistinctKeys entry.2) → DistinctKeys (.object entries)

namespace Value

theorem collapseItems_eq_map (items : List Value) : collapseItems items = items.map collapse := by
  induction items with
  | nil => rfl
  | cons item items ih => rw [collapseItems, ih, List.map_cons]

theorem collapseEntries_eq_map (entries : List (String × Value)) :
    collapseEntries entries = entries.map fun entry => (entry.1, entry.2.collapse) := by
  induction entries with
  | nil => rfl
  | cons entry entries ih => rw [collapseEntries, ih, List.map_cons]

theorem DistinctKeys.collapse_eq {value : Value} (distinct : value.DistinctKeys) :
    value.collapse = value := by
  induction distinct with
  | null | bool | number | string => rfl
  | array _ ih => rw [collapse, collapseItems_eq_map, List.map_congr_left ih, List.map_id']
  | @object entries distinct _ ih =>
      have inner : collapseEntries entries = entries := by
        rw [collapseEntries_eq_map]
        refine (List.map_congr_left fun entry member => ?_).trans (List.map_id entries)
        exact Prod.ext rfl (ih entry member)
      rw [collapse, inner, Keyed.ofList_of_distinct distinct]

end Value

end Json

end SdkClients
