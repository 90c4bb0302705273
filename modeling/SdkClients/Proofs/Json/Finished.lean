import SdkClients.Json.Node

set_option autoImplicit false

/-!
Trees of finished values.

Collecting the value of such a tree gives the value it was made of, passing over it finds no fault,
and tree and value nest equally deep.
-/

namespace SdkClients.Json

mutual

@[simp] theorem Node.value_ofValue (surplus : Surplus) : ∀ value : Value,
    (Node.ofValue surplus value).value = .ok value
  | .null | .bool _ | .number _ | .string _ => rfl
  | .array items => by
      rw [Node.ofValue, Node.value, Items.values_ofValues surplus items 0]
      rfl
  | .object entries => by
      rw [Node.ofValue, Node.value, Entries.pairs_ofPairs surplus entries]
      rfl

theorem Items.values_ofValues (surplus : Surplus) : ∀ (items : List Value) (position : Nat),
    (Items.ofValues surplus items).values position = .ok items
  | [], _ => rfl
  | item :: others, position => by
      rw [Items.ofValues, Items.values, Node.value_ofValue surplus item,
        Items.values_ofValues surplus others (position + 1)]
      rfl

private theorem Entries.pairs_ofPairs (surplus : Surplus) : ∀ entries : List (String × Value),
    (Entries.ofPairs surplus entries).pairs = .ok entries
  | [] => rfl
  | (key, value) :: others => by
      rw [Entries.ofPairs, Entries.pairs, Node.value_ofValue surplus value,
        Entries.pairs_ofPairs surplus others]
      rfl

end

mutual

/-- Nothing in such a tree stops someone who passes over it. -/
@[simp] theorem Node.skip_ofValue (surplus : Surplus) : ∀ value : Value,
    (Node.ofValue surplus value).skip = none
  | .null | .bool _ | .number _ | .string _ => rfl
  | .array items => by
      rw [Node.ofValue, Node.skip, Items.skip_ofValues surplus items]
  | .object entries => by
      rw [Node.ofValue, Node.skip, Entries.skip_ofPairs surplus entries]

private theorem Items.skip_ofValues (surplus : Surplus) : ∀ items : List Value,
    (Items.ofValues surplus items).skip = none
  | [] => rfl
  | item :: others => by
      rw [Items.ofValues, Items.skip, Node.skip_ofValue surplus item,
        Items.skip_ofValues surplus others]
      rfl

private theorem Entries.skip_ofPairs (surplus : Surplus) : ∀ entries : List (String × Value),
    (Entries.ofPairs surplus entries).skip = none
  | [] => rfl
  | (_, value) :: others => by
      rw [Entries.ofPairs, Entries.skip, Node.skip_ofValue surplus value,
        Entries.skip_ofPairs surplus others]
      rfl

end

mutual

@[simp] theorem Node.height_ofValue (surplus : Surplus) : ∀ value : Value,
    (Node.ofValue surplus value).height = value.height
  | .null | .bool _ | .number _ | .string _ => rfl
  | .array items => by
      rw [Node.ofValue, Node.height, Value.height, Items.height_ofValues surplus items]
  | .object entries => by
      rw [Node.ofValue, Node.height, Value.height, Entries.height_ofPairs surplus entries]

private theorem Items.height_ofValues (surplus : Surplus) : ∀ items : List Value,
    (Items.ofValues surplus items).height = Value.heightOfItems items
  | [] => rfl
  | item :: others => by
      rw [Items.ofValues, Items.height, Value.heightOfItems, Node.height_ofValue surplus item,
        Items.height_ofValues surplus others]

private theorem Entries.height_ofPairs (surplus : Surplus) : ∀ entries : List (String × Value),
    (Entries.ofPairs surplus entries).height = Value.heightOfEntries entries
  | [] => rfl
  | (key, value) :: others => by
      rw [Entries.ofPairs, Entries.height, Value.heightOfEntries,
        Node.height_ofValue surplus value, Entries.height_ofPairs surplus others]

end

namespace Value

theorem heightOfItems_le_iff {items : List Value} {bound : Nat} :
    heightOfItems items ≤ bound ↔ ∀ item ∈ items, item.height ≤ bound := by
  induction items with
  | nil => simp [heightOfItems]
  | cons item items ih => rw [heightOfItems, Nat.max_le, ih, List.forall_mem_cons]

theorem heightOfEntries_le_iff {entries : List (String × Value)} {bound : Nat} :
    heightOfEntries entries ≤ bound ↔ ∀ entry ∈ entries, entry.2.height ≤ bound := by
  induction entries with
  | nil => simp [heightOfEntries]
  | cons entry entries ih => rw [heightOfEntries, Nat.max_le, ih, List.forall_mem_cons]

theorem height_le_of_mem_items {item : Value} {items : List Value} (member : item ∈ items) :
    item.height ≤ heightOfItems items :=
  heightOfItems_le_iff.mp (Nat.le_refl _) item member

theorem height_le_of_mem_entries {entry : String × Value} {entries : List (String × Value)}
    (member : entry ∈ entries) : entry.2.height ≤ heightOfEntries entries :=
  heightOfEntries_le_iff.mp (Nat.le_refl _) entry member

end Value

end SdkClients.Json
