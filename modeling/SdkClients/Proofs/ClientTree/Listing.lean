import SdkClients.ClientTree.SubClients
import SdkClients.Proofs.ClientTree.Adoption
import SdkClients.Proofs.ClientTree.Promotion

set_option autoImplicit false

/-!
What a successful listing says.

A client can be listed when every container right inside its own one either has a client that
links back or is rejected by the rule. A recursive listing succeeds exactly when this holds of
the start and of everything it lists. Since a rejected container is empty, nothing deeper can
be hidden behind it, however the parent links of the tree run.
-/

namespace SdkClients

namespace ClientTree

open ContainerGraph

variable {tree : ClientTree}

def clientsInside (tree : ClientTree) (client : Client) : List Client :=
  (tree.graph.nestedIn client.container).filterMap tree.clientFor?

/-- A nested container gives no error: its client links back, or it has none and the rule does
not ask for one. -/
def Fits (tree : ClientTree) (client : Client) (child : ContainerId) : Prop :=
  ∃ container, tree.graph.container? child = some container ∧
    (∀ sub, tree.clientFor? child = some sub → sub.parent = some client.id) ∧
    (tree.clientFor? child = none → tree.rule.qualifies container = false)

def Listable (tree : ClientTree) (client : Client) : Prop :=
  client.container < tree.graph.size ∧
    ∀ child, tree.graph.Nests client.container child → tree.Fits client child

/-! ### One client -/

theorem subClient_eq_ok_iff {client : Client} {child : ContainerId} {sub : Option Client} :
    tree.subClient client child = .ok sub ↔
      tree.Fits client child ∧ sub = tree.clientFor? child := by
  unfold subClient Fits
  cases found : tree.graph.container? child with
  | none => simp
  | some container =>
      cases present : tree.clientFor? child with
      | none =>
          cases qualifies : tree.rule.qualifies container with
          | true => simp [qualifies]
          | false =>
              simp only [qualifies, Bool.false_eq_true, if_false, Except.ok.injEq]
              simp [qualifies, @eq_comm _ none sub]
      | some built =>
          by_cases link : built.parent = some client.id
          · simp only [link, if_true, Except.ok.injEq]
            simp [link, @eq_comm _ (some built) sub]
          · simp [link]

theorem subClientsOf_eq_ok_iff {client : Client} {ids : List ContainerId}
    {listed : List Client} :
    tree.subClientsOf client ids = .ok listed ↔
      (∀ child ∈ ids, tree.Fits client child) ∧ listed = ids.filterMap tree.clientFor? := by
  induction ids generalizing listed with
  | nil => simp [subClientsOf, eq_comm]
  | cons child ids ih =>
      have joined : (tree.clientFor? child).toList ++ ids.filterMap tree.clientFor? =
          (child :: ids).filterMap tree.clientFor? := by
        cases found : tree.clientFor? child <;> simp [found]
      simp only [subClientsOf, bind_eq_ok_iff, pure_eq_ok_iff, subClient_eq_ok_iff, ih,
        List.forall_mem_cons]
      constructor
      · rintro ⟨_, ⟨fits, rfl⟩, _, ⟨fit, rfl⟩, rfl⟩
        exact ⟨⟨fits, fit⟩, joined⟩
      · rintro ⟨⟨fits, fit⟩, rfl⟩
        exact ⟨_, ⟨fits, rfl⟩, _, ⟨fit, rfl⟩, joined⟩

theorem directSubClients_eq_ok_iff {client : Client} {listed : List Client} :
    tree.directSubClients client = .ok listed ↔
      tree.Listable client ∧ listed = tree.clientsInside client := by
  unfold directSubClients Listable clientsInside nestedIn
  cases found : tree.graph.container? client.container with
  | none =>
      have absent : ¬ client.container < tree.graph.size :=
        Nat.not_lt.mpr (container?_eq_none_iff.mp found)
      simp [absent]
  | some container =>
      have present : client.container < tree.graph.size := lt_size_of_container? found
      simp [subClientsOf_eq_ok_iff, present, Nests, found]

/-! ### The queue -/

/-- A listing succeeds when every client that is taken off the queue can be listed; it then
gives what a sweep adds to the queue. -/
private theorem listFrom_eq_ok_iff {fuel : Nat} {queue listed : List Client} :
    tree.listFrom fuel queue = .ok listed ↔
      sweep tree.clientsInside fuel queue = queue ++ listed ∧
        ∀ client ∈ (sweep tree.clientsInside fuel queue).take fuel, tree.Listable client := by
  induction fuel generalizing queue listed with
  | zero => cases queue <;> simp [listFrom, eq_comm]
  | succ fuel ih =>
      cases queue with
      | nil => simp [listFrom, eq_comm]
      | cons head queue =>
          simp only [listFrom, bind_eq_ok_iff, pure_eq_ok_iff, directSubClients_eq_ok_iff, ih,
            sweep, List.take_succ_cons, List.forall_mem_cons, List.cons_append, List.cons.injEq,
            true_and]
          constructor
          · rintro ⟨_, ⟨listable, rfl⟩, later, ⟨swept, rest⟩, rfl⟩
            exact ⟨by rw [swept, List.append_assoc], listable, rest⟩
          · rintro ⟨swept, listable, rest⟩
            have general := sweep_eq_queue_append tree.clientsInside fuel
              (queue ++ tree.clientsInside head)
            refine ⟨_, ⟨listable, rfl⟩, _, ⟨general, rest⟩, ?_⟩
            rw [general, List.append_assoc, List.append_cancel_left_eq] at swept
            exact swept

/-! ### The containers of a listing -/

def housed (tree : ClientTree) (id : ContainerId) : List ContainerId :=
  (tree.graph.nestedIn id).filter fun child => (tree.clientFor? child).isSome

private theorem filterMap_clientFor?_containers (indexed : tree.Indexed) (ids : List ContainerId) :
    (ids.filterMap tree.clientFor?).map Client.container =
      ids.filter fun id => (tree.clientFor? id).isSome := by
  induction ids with
  | nil => rfl
  | cons id ids ih =>
      cases found : tree.clientFor? id with
      | none => simp [found, ih]
      | some client => simp [found, ih, (indexed.clientFor?_iff.mp found).2]

theorem clientsInside_containers (indexed : tree.Indexed) (client : Client) :
    (tree.clientsInside client).map Client.container = tree.housed client.container :=
  filterMap_clientFor?_containers indexed _

theorem mem_clientsInside_iff (indexed : tree.Indexed) {client sub : Client} :
    sub ∈ tree.clientsInside client ↔
      sub ∈ tree.clients ∧ tree.graph.Nests client.container sub.container := by
  simp only [clientsInside, List.mem_filterMap, mem_nestedIn_iff, indexed.clientFor?_iff]
  constructor
  · rintro ⟨_, nests, member, rfl⟩
    exact ⟨member, nests⟩
  · rintro ⟨member, nests⟩
    exact ⟨_, nests, member, rfl⟩

theorem mem_clients_of_reaches (indexed : tree.Indexed) {start client : Client}
    (member : start ∈ tree.clients) (reached : Reaches tree.clientsInside [start] client) :
    client ∈ tree.clients := by
  obtain ⟨origin, first, path⟩ := reached
  rw [List.mem_singleton.mp first] at path
  cases path with
  | refl => exact member
  | tail _ last => exact ((mem_clientsInside_iff indexed).mp last).1

private theorem nests_of_mem_housed (outer : ContainerId) :
    ∀ inner ∈ tree.housed outer, tree.graph.Nests outer inner :=
  fun _ member => mem_nestedIn_iff.mp (List.mem_filter.mp member).1

theorem housedForest (nested : tree.graph.WellNested) (start : ContainerId) :
    Forest tree.housed [start] := by
  refine nested.forest_singleton nests_of_mem_housed (fun outer => ?_) start
  unfold housed nestedIn
  cases found : tree.graph.container? outer with
  | none => exact List.nodup_nil
  | some container => exact (nested.children_nodup found).filter _

theorem sweep_containers (indexed : tree.Indexed) (fuel : Nat) (queue : List Client) :
    (sweep tree.clientsInside fuel queue).map Client.container =
      sweep tree.housed fuel (queue.map Client.container) :=
  sweep_map (clientsInside_containers indexed) fuel queue

theorem inside_settled (indexed : tree.Indexed) (nested : tree.graph.WellNested) {start : Client}
    (member : start ∈ tree.clients) : Settled tree.clientsInside tree.size [start] := by
  have within : ∀ entry, Reaches tree.housed [start.container] entry →
      entry ∈ tree.clients.map Client.container := by
    rintro entry ⟨origin, first, path⟩
    cases path with
    | refl =>
        rw [List.mem_singleton.mp first]
        exact List.mem_map_of_mem member
    | tail _ last =>
        obtain ⟨client, found⟩ := Option.isSome_iff_exists.mp (List.mem_filter.mp last).2
        obtain ⟨listed, here⟩ := indexed.clientFor?_iff.mp found
        exact List.mem_map.mpr ⟨client, listed, here⟩
  have settled := (housedForest nested start.container).settled _ within
  rw [List.length_map] at settled
  have containers : (sweep tree.clientsInside tree.size [start]).length =
      (sweep tree.housed tree.size [start.container]).length := by
    rw [← List.map_singleton, ← sweep_containers indexed, List.length_map]
  unfold Settled
  rw [containers]
  exact settled

/-- A recursive listing from a client that succeeds, in a tree with exact look-ups over a graph
with consistent links. -/
structure Listing (tree : ClientTree) (start : Client) (listed : List Client) : Prop where
  indexed : tree.Indexed
  nested : tree.graph.WellNested
  member : start ∈ tree.clients
  swept : sweep tree.clientsInside tree.size [start] = start :: listed
  listable : ∀ client ∈ start :: listed, tree.Listable client

theorem Listing.mem_clients {start client : Client} {listed : List Client}
    (listing : tree.Listing start listed) (taken : client ∈ start :: listed) :
    client ∈ tree.clients :=
  mem_clients_of_reaches listing.indexed listing.member
    (reaches_of_mem_sweep (listing.swept ▸ taken))

theorem subClients_eq_ok_iff (indexed : tree.Indexed) (nested : tree.graph.WellNested)
    {start : Client} (member : start ∈ tree.clients) {listed : List Client} :
    tree.subClients start.id true = .ok listed ↔ tree.Listing start listed := by
  have settled := inside_settled indexed nested member
  simp only [subClients, indexed.client?_id member, if_true, listFrom_eq_ok_iff,
    List.singleton_append, List.take_of_length_le settled]
  constructor
  · rintro ⟨swept, listable⟩
    exact ⟨indexed, nested, member, swept, swept ▸ listable⟩
  · intro listing
    exact ⟨listing.swept, listing.swept.symm ▸ listing.listable⟩

end ClientTree

end SdkClients
