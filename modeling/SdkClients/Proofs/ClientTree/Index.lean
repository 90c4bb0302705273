import SdkClients.ClientTree
import SdkClients.Proofs.DistinctKeys

set_option autoImplicit false

/-!
Trees whose look-ups are exact.

In an indexed tree every client carries its position as id, every container is in the graph
and stands behind one client at most, a parent link leads to another position of the tree,
and the index holds the clients with their containers and nothing else. So what it says
about a container leads to the client of that container. Built trees and adopted trees are
indexed.
-/

namespace SdkClients.ClientTree

/-- The positions of clients under their containers. -/
def indexOf (clients : List Client) : List (ContainerId × ClientId) :=
  clients.map fun client => (client.container, client.id)

@[simp] theorem indexOf_nil : indexOf [] = [] := rfl

theorem distinct_indexOf_iff {clients : List Client} :
    Keyed.Distinct (indexOf clients) ↔ (clients.map Client.container).Nodup := by
  rw [Keyed.Distinct, indexOf, List.map_map]
  rfl

structure Indexed (tree : ClientTree) : Prop where
  ids : tree.clients.map Client.id = List.range tree.size
  distinct : (tree.clients.map Client.container).Nodup
  placed : ∀ client ∈ tree.clients, client.container < tree.graph.size
  linked : ∀ client ∈ tree.clients, ∀ parent, client.parent = some parent →
    parent < tree.size ∧ parent ≠ client.id
  entered : tree.byContainer = indexOf tree.clients

variable {tree : ClientTree}

theorem lt_size_of_client? {id : ClientId} {client : Client}
    (found : tree.client? id = some client) : id < tree.size :=
  (List.getElem?_eq_some_iff.mp found).1

namespace Indexed

theorem client?_iff (indexed : tree.Indexed) {id : ClientId} {client : Client} :
    tree.client? id = some client ↔ client ∈ tree.clients ∧ client.id = id := by
  have position : ∀ (index : Nat) (found : Client), tree.clients[index]? = some found →
      found.id = index := by
    intro index found located
    have bound : index < tree.size := (List.getElem?_eq_some_iff.mp located).1
    have mapped : (tree.clients.map Client.id)[index]? = some found.id := by
      rw [List.getElem?_map, located, Option.map_some]
    rw [indexed.ids, List.getElem?_range bound, Option.some.injEq] at mapped
    exact mapped.symm
  constructor
  · intro located
    exact ⟨List.mem_of_getElem? located, position id client located⟩
  · rintro ⟨member, rfl⟩
    obtain ⟨index, located⟩ := List.mem_iff_getElem?.mp member
    rw [position index client located]
    exact located

theorem client?_id (indexed : tree.Indexed) {client : Client} (member : client ∈ tree.clients) :
    tree.client? client.id = some client :=
  indexed.client?_iff.mpr ⟨member, rfl⟩

theorem id_lt_size (indexed : tree.Indexed) {client : Client} (member : client ∈ tree.clients) :
    client.id < tree.size :=
  lt_size_of_client? (indexed.client?_id member)

theorem eq_of_id_eq (indexed : tree.Indexed) {first second : Client}
    (left : first ∈ tree.clients) (right : second ∈ tree.clients)
    (same : first.id = second.id) : first = second := by
  have found := indexed.client?_id left
  rw [same, indexed.client?_id right] at found
  exact (Option.some.inj found).symm

theorem eq_of_container_eq (indexed : tree.Indexed) {first second : Client}
    (left : first ∈ tree.clients) (right : second ∈ tree.clients)
    (same : first.container = second.container) : first = second :=
  List.inj_on_of_nodup_map indexed.distinct left right same

theorem clients_pairwise (indexed : tree.Indexed) :
    tree.clients.Pairwise fun first second => first.id < second.id := by
  have sorted : (tree.clients.map Client.id).Pairwise (· < ·) := by
    rw [indexed.ids]
    exact List.pairwise_lt_range
  exact List.pairwise_map.mp sorted

theorem rel_of_id_lt (indexed : tree.Indexed) {R : Client → Client → Prop}
    (ordered : tree.clients.Pairwise R) {first second : Client} (left : first ∈ tree.clients)
    (right : second ∈ tree.clients) (before : first.id < second.id) : R first second := by
  obtain ⟨leftBound, atLeft⟩ := List.getElem?_eq_some_iff.mp (indexed.client?_id left)
  obtain ⟨rightBound, atRight⟩ := List.getElem?_eq_some_iff.mp (indexed.client?_id right)
  have related := List.pairwise_iff_getElem.mp ordered _ _ leftBound rightBound before
  rw [atLeft, atRight] at related
  exact related

private theorem get?_iff (indexed : tree.Indexed) {container : ContainerId} {id : ClientId} :
    Keyed.get? tree.byContainer container = some id ↔
      ∃ client ∈ tree.clients, client.container = container ∧ client.id = id := by
  have distinct := distinct_indexOf_iff.mpr indexed.distinct
  rw [indexed.entered, Keyed.get?_iff_of_distinct distinct, indexOf, List.mem_map]
  simp only [Prod.mk.injEq]

theorem get?_iff_client? (indexed : tree.Indexed) {container : ContainerId} {id : ClientId} :
    Keyed.get? tree.byContainer container = some id ↔
      ∃ client, tree.client? id = some client ∧ client.container = container := by
  rw [indexed.get?_iff]
  refine exists_congr fun client => ?_
  rw [indexed.client?_iff, and_assoc, and_comm (a := client.container = container)]

theorem clientFor?_iff (indexed : tree.Indexed) {container : ContainerId} {client : Client} :
    tree.clientFor? container = some client ↔
      client ∈ tree.clients ∧ client.container = container := by
  rw [clientFor?, Option.bind_eq_some_iff]
  constructor
  · rintro ⟨id, listed, found⟩
    obtain ⟨other, member, here, rfl⟩ := indexed.get?_iff.mp listed
    rw [indexed.client?_id member, Option.some.injEq] at found
    exact found ▸ ⟨member, here⟩
  · rintro ⟨member, here⟩
    exact ⟨client.id, indexed.get?_iff.mpr ⟨client, member, here, rfl⟩, indexed.client?_id member⟩

theorem clientFor?_container (indexed : tree.Indexed) {client : Client}
    (member : client ∈ tree.clients) : tree.clientFor? client.container = some client :=
  indexed.clientFor?_iff.mpr ⟨member, rfl⟩

theorem filterMap_containers (indexed : tree.Indexed) {clients : List Client}
    (present : ∀ client ∈ clients, client ∈ tree.clients) :
    (clients.map Client.container).filterMap tree.clientFor? = clients := by
  induction clients with
  | nil => rfl
  | cons client clients ih =>
      obtain ⟨presentHead, presentTail⟩ := List.forall_mem_cons.mp present
      rw [List.map_cons, List.filterMap_cons_some (indexed.clientFor?_container presentHead),
        ih presentTail]

end Indexed

end SdkClients.ClientTree
