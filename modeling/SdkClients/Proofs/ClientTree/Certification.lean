import SdkClients.Proofs.ClientTree.Listing

set_option autoImplicit false

/-!
A recursive listing that succeeds covers everything below its start.

Adopted clients are checked one by one only, so their parent links may be wrong. Still, when
the listing from a client succeeds, every container strictly inside the client's own one has
its client in the list, with the right parent, or is rejected by the rule.
-/

namespace SdkClients.ClientTree

open ContainerGraph

variable {tree : ClientTree} {start : Client} {listed : List Client}

namespace Listing

private theorem mem_of_nests (listing : tree.Listing start listed) {lister client : Client}
    (taken : lister ∈ start :: listed) (present : client ∈ tree.clients)
    (nests : tree.graph.Nests lister.container client.container) : client ∈ start :: listed := by
  have settled := inside_settled listing.indexed listing.nested listing.member
  rw [← listing.swept, settled.mem_iff] at taken ⊢
  exact taken.step ((mem_clientsInside_iff listing.indexed).mpr ⟨present, nests⟩)

/-- Every container strictly inside the start's lies right inside one that was listed. The way
down cannot end early: a container without a client would be a rejected one, which is empty. -/
private theorem exists_lister (listing : tree.Listing start listed) {id : ContainerId}
    (below : tree.graph.Below start.container id) :
    ∃ lister ∈ start :: listed, tree.graph.Nests lister.container id := by
  induction below with
  | single nests => exact ⟨start, List.mem_cons_self, nests⟩
  | @tail middle inner _ nests ih =>
      obtain ⟨lister, taken, holds⟩ := ih
      obtain ⟨container, found, -, rejected⟩ := (listing.listable lister taken).2 middle holds
      cases present : tree.clientFor? middle with
      | none =>
          obtain ⟨filled, here, qualifies⟩ := qualifies_of_nests tree.rule nests
          rw [found, Option.some.injEq] at here
          rw [← here, rejected present] at qualifies
          cases qualifies
      | some client =>
          obtain ⟨clientMember, here⟩ := listing.indexed.clientFor?_iff.mp present
          subst here
          exact ⟨client, listing.mem_of_nests taken clientMember holds, nests⟩

private theorem nodup (listing : tree.Listing start listed) : (start :: listed).Nodup := by
  have distinct : ((start :: listed).map Client.container).Nodup := by
    rw [← listing.swept, sweep_containers listing.indexed]
    exact (housedForest listing.nested start.container).sweep_nodup tree.size
  exact .of_map _ distinct

theorem mem_iff_steps (listing : tree.Listing start listed) {client : Client} :
    client ∈ listed ↔
      Relation.TransGen (fun upper lower => lower ∈ tree.clientsInside upper) start client := by
  have fresh : start ∉ listed := (List.nodup_cons.mp listing.nodup).1
  have settled := inside_settled listing.indexed listing.nested listing.member
  constructor
  · intro inside
    have different : client ≠ start := fun same => fresh (same ▸ inside)
    obtain ⟨origin, first, path⟩ : Reaches tree.clientsInside [start] client :=
      reaches_of_mem_sweep (listing.swept ▸ List.mem_cons_of_mem start inside)
    rw [List.mem_singleton.mp first] at path
    exact (Relation.reflTransGen_iff_eq_or_transGen.mp path).resolve_left different
  · intro steps
    have taken : client ∈ start :: listed := by
      rw [← listing.swept, settled.mem_iff]
      exact ⟨start, List.mem_singleton_self start, steps.to_reflTransGen⟩
    have below : tree.graph.Below start.container client.container :=
      steps.lift Client.container fun _ _ step =>
        ((mem_clientsInside_iff listing.indexed).mp step).2
    refine (List.mem_cons.mp taken).resolve_left ?_
    rintro rfl
    exact Nat.lt_irrefl _ (listing.nested.below_lt below)

theorem mem_iff (listing : tree.Listing start listed) {client : Client} :
    client ∈ listed ↔
      client ∈ tree.clients ∧ tree.graph.Below start.container client.container := by
  constructor
  · intro inside
    have steps := listing.mem_iff_steps.mp inside
    obtain ⟨last, -, final⟩ := Relation.TransGen.tail'_iff.mp steps
    refine ⟨((mem_clientsInside_iff listing.indexed).mp final).1, ?_⟩
    exact steps.lift Client.container fun _ _ step =>
      ((mem_clientsInside_iff listing.indexed).mp step).2
  · rintro ⟨present, below⟩
    obtain ⟨lister, taken, nests⟩ := listing.exists_lister below
    refine (List.mem_cons.mp (listing.mem_of_nests taken present nests)).resolve_left ?_
    rintro rfl
    exact Nat.lt_irrefl _ (listing.nested.below_lt below)

private theorem parent_of_mem (listing : tree.Listing start listed) {client : Client}
    (inside : client ∈ listed) :
    ∃ outer parent, tree.graph.parentOf? client.container = some outer ∧
      tree.clientFor? outer = some parent ∧ client.parent = some parent.id := by
  obtain ⟨present, below⟩ := listing.mem_iff.mp inside
  obtain ⟨lister, taken, nests⟩ := listing.exists_lister below
  obtain ⟨container, -, linked, -⟩ := (listing.listable lister taken).2 client.container nests
  have listerMember : lister ∈ tree.clients := by
    rcases List.mem_cons.mp taken with rfl | deeper
    · exact listing.member
    · exact (listing.mem_iff.mp deeper).1
  exact ⟨lister.container, lister, listing.nested.nests_iff.mp nests,
    listing.indexed.clientFor?_container listerMember,
    linked client (listing.indexed.clientFor?_container present)⟩

private theorem rejected_of_missing (listing : tree.Listing start listed) {id : ContainerId}
    (below : tree.graph.Below start.container id) (missing : tree.clientFor? id = none) :
    ∃ container, tree.graph.container? id = some container ∧
      tree.rule.qualifies container = false := by
  obtain ⟨lister, taken, nests⟩ := listing.exists_lister below
  obtain ⟨container, found, -, rejected⟩ := (listing.listable lister taken).2 id nests
  exact ⟨container, found, rejected missing⟩

end Listing

/-- What a recursive listing from a client covers: everything strictly below its container,
once, with parents that follow the nesting. -/
structure Covers (tree : ClientTree) (start : Client) (listed : List Client) : Prop where
  /-- No client is listed twice, and the start is not listed. -/
  distinct : listed.Nodup
  apart : start ∉ listed
  /-- The clients of the containers strictly below the start's container are listed, and no
  others. -/
  exact : ∀ client, client ∈ listed ↔
    client ∈ tree.clients ∧ tree.graph.Below start.container client.container
  /-- The parent of a listed client is the client of the parent container. -/
  parented : ∀ client ∈ listed, ∃ outer parent,
    tree.graph.parentOf? client.container = some outer ∧
      tree.clientFor? outer = some parent ∧ client.parent = some parent.id
  /-- A container below that has no client is rejected, hence empty and unmarked. -/
  rejected : ∀ id, tree.graph.Below start.container id → tree.clientFor? id = none →
    ∃ container, tree.graph.container? id = some container ∧
      tree.rule.qualifies container = false ∧ tree.rule = .nonEmpty ∧
      container.isEmpty = true ∧ container.service = false ∧ container.client = false

/-- A successful recursive listing certifies the whole subtree of its start, whatever the
parent links of the adopted clients are. -/
theorem subClients_certify {graph : ContainerGraph} {rule : PromotionRule} {clients : List Client}
    {tree : ClientTree} {start : Client} {listed : List Client} (reachable : graph.Reachable)
    (adopted : adopt graph rule clients = .ok tree) (member : start ∈ clients)
    (success : tree.subClients start.id true = .ok listed) :
    tree.graph = graph ∧ tree.rule = rule ∧ tree.clients = clients ∧ tree.Covers start listed := by
  have nested : graph.WellNested := reachable.wellNested
  obtain ⟨rfl, indexed⟩ := adopt_eq_ok_iff.mp adopted
  have listing := (subClients_eq_ok_iff indexed nested member).mp success
  obtain ⟨fresh, distinct⟩ := List.nodup_cons.mp listing.nodup
  refine ⟨rfl, rfl, rfl, distinct, fresh, fun client => listing.mem_iff,
    fun client inside => listing.parent_of_mem inside, ?_⟩
  intro id below missing
  obtain ⟨container, found, rejected⟩ := listing.rejected_of_missing below missing
  exact ⟨container, found, rejected, rejected_iff.mp rejected⟩

/-- Clients whose parent links run in a circle: the first and the last are each other's
parent. -/
def circularClients : List Client :=
  [⟨0, "B", 1, some 3⟩, ⟨1, "D", 3, some 0⟩, ⟨2, "E", 4, some 0⟩, ⟨3, "A", 0, some 0⟩]

def circularTree : ClientTree :=
  ⟨twoServices, .nonEmpty, circularClients, [(1, 0), (3, 1), (4, 2), (0, 3)]⟩

theorem subClients_certify_circularTree :
    adopt twoServices .nonEmpty circularClients = .ok circularTree ∧
      circularTree.subClients 0 true = .ok [⟨1, "D", 3, some 0⟩, ⟨2, "E", 4, some 0⟩] ∧
      circularTree.Covers ⟨0, "B", 1, some 3⟩ [⟨1, "D", 3, some 0⟩, ⟨2, "E", 4, some 0⟩] := by
  have adopted : adopt twoServices .nonEmpty circularClients = .ok circularTree := by decide
  have success : circularTree.subClients 0 true =
      .ok [⟨1, "D", 3, some 0⟩, ⟨2, "E", 4, some 0⟩] := by decide
  obtain ⟨-, -, -, covers⟩ := subClients_certify reachable_twoServices adopted
    List.mem_cons_self success
  exact ⟨adopted, success, covers⟩

end SdkClients.ClientTree
