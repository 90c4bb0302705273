import SdkClients.Json.Reader
import SdkClients.Proofs.Fallible

set_option autoImplicit false

/-!
Located trees without their places.

Taking the places away leaves the shape of a tree, what it holds and its faults. A tree with a
value is then the tree of that value: a text that can be read to its end and the finished value
differ in nothing but places.
-/

namespace SdkClients.Json

mutual

/-- The same tree as if it had not come from a text; faults stay. -/
def Node.unplaced : Node → Node
  | .null _ => .null none
  | .bool value _ => .bool value none
  | .number value _ => .number value none
  | .string text _ => .string text none
  | .array _ items => .array none items.unplaced
  | .object _ entries => .object none entries.unplaced
  | .tooDeep limit inner => .tooDeep limit inner.unplaced
  | .unreadable read skip => .unreadable read skip

def Items.unplaced : Items → Items
  | .done _ => .done none
  | .item _ _ node rest => .item none .fewerWanted node.unplaced rest.unplaced
  | .broken _ _ read skip => .broken none .fewerWanted read skip

def Entries.unplaced : Entries → Entries
  | .done _ => .done none
  | .entry _ key _ node rest => .entry none key none node.unplaced rest.unplaced
  | .noColon _ key _ malformed => .noColon none key none malformed
  | .broken _ read skip => .broken none read skip

end

mutual

@[simp] theorem Node.height_unplaced : ∀ node : Node, node.unplaced.height = node.height
  | .null _ | .bool _ _ | .number _ _ | .string _ _ | .unreadable _ _ => rfl
  | .array _ items => by
      rw [Node.unplaced, Node.height, Node.height, Items.height_unplaced items]
  | .object _ entries => by
      rw [Node.unplaced, Node.height, Node.height, Entries.height_unplaced entries]
  | .tooDeep _ inner => by
      rw [Node.unplaced, Node.height, Node.height, Node.height_unplaced inner]

@[simp] theorem Items.height_unplaced : ∀ items : Items, items.unplaced.height = items.height
  | .done _ | .broken _ _ _ _ => rfl
  | .item _ _ node rest => by
      rw [Items.unplaced, Items.height, Items.height, Node.height_unplaced node,
        Items.height_unplaced rest]

@[simp] theorem Entries.height_unplaced : ∀ entries : Entries,
    entries.unplaced.height = entries.height
  | .done _ | .noColon _ _ _ _ | .broken _ _ _ => rfl
  | .entry _ _ _ node rest => by
      rw [Entries.unplaced, Entries.height, Entries.height, Node.height_unplaced node,
        Entries.height_unplaced rest]

end

mutual

@[simp] theorem Node.skip_unplaced : ∀ node : Node, node.unplaced.skip = node.skip
  | .null _ | .bool _ _ | .number _ _ | .string _ _ | .unreadable _ _ => rfl
  | .array _ items => by rw [Node.unplaced, Node.skip, Node.skip, Items.skip_unplaced items]
  | .object _ entries => by
      rw [Node.unplaced, Node.skip, Node.skip, Entries.skip_unplaced entries]
  | .tooDeep _ inner => by rw [Node.unplaced, Node.skip, Node.skip, Node.skip_unplaced inner]

@[simp] theorem Items.skip_unplaced : ∀ items : Items, items.unplaced.skip = items.skip
  | .done _ | .broken _ _ _ _ => rfl
  | .item _ _ node rest => by
      rw [Items.unplaced, Items.skip, Items.skip, Node.skip_unplaced node,
        Items.skip_unplaced rest]

@[simp] theorem Entries.skip_unplaced : ∀ entries : Entries, entries.unplaced.skip = entries.skip
  | .done _ | .noColon _ _ _ _ | .broken _ _ _ => rfl
  | .entry _ _ _ node rest => by
      rw [Entries.unplaced, Entries.skip, Entries.skip, Node.skip_unplaced node,
        Entries.skip_unplaced rest]

end

mutual

@[simp] theorem Node.value_unplaced : ∀ node : Node, node.unplaced.value = node.value
  | .null _ | .bool _ _ | .number _ _ | .string _ _ | .tooDeep _ _ | .unreadable _ _ => rfl
  | .array _ items => by
      rw [Node.unplaced, Node.value, Node.value, Items.values_unplaced items 0]
  | .object _ entries => by
      rw [Node.unplaced, Node.value, Node.value, Entries.pairs_unplaced entries]

@[simp] theorem Items.values_unplaced : ∀ (items : Items) (position : Nat),
    items.unplaced.values position = items.values position
  | .done _, _ | .broken _ _ _ _, _ => rfl
  | .item _ _ node rest, position => by
      rw [Items.unplaced, Items.values, Items.values, Node.value_unplaced node,
        Items.values_unplaced rest (position + 1)]

@[simp] theorem Entries.pairs_unplaced : ∀ entries : Entries,
    entries.unplaced.pairs = entries.pairs
  | .done _ | .noColon _ _ _ _ | .broken _ _ _ => rfl
  | .entry _ _ _ node rest => by
      rw [Entries.unplaced, Entries.pairs, Entries.pairs, Node.value_unplaced node,
        Entries.pairs_unplaced rest]

end

mutual

/-- A tree with a value has no faults that could stay. -/
theorem Node.unplaced_of_value : ∀ (node : Node) {value : Value}, node.value = .ok value →
    node.unplaced = Node.ofValue .fewerWanted value
  | .null _, _, read | .bool _ _, _, read | .number _ _, _, read | .string _ _, _, read => by
      cases read
      rfl
  | .array _ items, value, read => by
      rw [Node.value, map_eq_ok_iff] at read
      obtain ⟨values, inner, rfl⟩ := read
      rw [Node.unplaced, Node.ofValue, Items.unplaced_of_values items inner]
  | .object _ entries, value, read => by
      rw [Node.value, map_eq_ok_iff] at read
      obtain ⟨pairs, inner, rfl⟩ := read
      rw [Node.unplaced, Node.ofValue, Entries.unplaced_of_pairs entries inner]
  | .tooDeep _ _, _, read | .unreadable _ _, _, read => by cases read

private theorem Items.unplaced_of_values : ∀ (items : Items) {position : Nat} {values : List Value},
    items.values position = .ok values → items.unplaced = Items.ofValues .fewerWanted values
  | .done _, _, _, read => by
      cases read
      rfl
  | .item _ _ node rest, position, values, read => by
      rw [Items.values] at read
      obtain ⟨first, head, read⟩ := bind_eq_ok_iff.mp read
      obtain ⟨others, later, read⟩ := bind_eq_ok_iff.mp read
      obtain rfl := pure_eq_ok_iff.mp read
      rw [Items.unplaced, Items.ofValues,
        Node.unplaced_of_value node (mapError_eq_ok_iff.mp head),
        Items.unplaced_of_values rest later]
  | .broken _ _ _ _, _, _, read => by cases read

private theorem Entries.unplaced_of_pairs : ∀ (entries : Entries) {pairs : List (String × Value)},
    entries.pairs = .ok pairs → entries.unplaced = Entries.ofPairs .fewerWanted pairs
  | .done _, _, read => by
      cases read
      rfl
  | .entry _ key _ node rest, pairs, read => by
      rw [Entries.pairs] at read
      obtain ⟨name, named, read⟩ := bind_eq_ok_iff.mp read
      obtain ⟨first, head, read⟩ := bind_eq_ok_iff.mp read
      obtain ⟨others, later, read⟩ := bind_eq_ok_iff.mp read
      obtain rfl := pure_eq_ok_iff.mp read
      rw [Entries.unplaced, Entries.ofPairs, mapError_eq_ok_iff.mp named,
        Node.unplaced_of_value node (mapError_eq_ok_iff.mp head),
        Entries.unplaced_of_pairs rest later]
  | .noColon _ key _ _, _, read => by
      rw [Entries.pairs] at read
      obtain ⟨_, _, read⟩ := bind_eq_ok_iff.mp read
      cases read
  | .broken _ _ _, _, read => by cases read

end

end SdkClients.Json
