import SdkClients.Proofs.ClientTree.BuiltTree
import SdkClients.Proofs.ClientTree.Certification

set_option autoImplicit false

/-!
Listings of built trees.

In a built tree every client can be listed. Its direct sub-clients are those whose parent link
leads to it, and its recursive listing gives the clients from which parent links lead up to it.
The queue of a listing goes through part of the forest that building went through as a whole:
the ids it lists rise, because in a built tree the parents never go back.
-/

namespace SdkClients.ClientTree

open ContainerGraph

variable {graph : ContainerGraph} {rule : PromotionRule}

/-- A client's parent link leads to a client. -/
def LinksTo (tree : ClientTree) (client parent : Client) : Prop :=
  tree.parent? client.id = some parent

theorem Indexed.linksTo_iff {tree : ClientTree} (indexed : tree.Indexed) {client parent : Client}
    (member : client ∈ tree.clients) :
    tree.LinksTo client parent ↔
      parent ∈ tree.clients ∧ client.parent = some parent.id := by
  simp only [LinksTo, parent?, indexed.client?_id member, Option.bind_some,
    Option.bind_eq_some_iff, indexed.client?_iff]
  constructor
  · rintro ⟨_, link, present, rfl⟩
    exact ⟨present, link⟩
  · rintro ⟨present, link⟩
    exact ⟨_, link, present, rfl⟩

theorem build_listable (nested : graph.WellNested) {client : Client}
    (member : client ∈ (build graph rule).clients) : (build graph rule).Listable client := by
  have indexed : (build graph rule).Indexed := build_indexed nested
  refine ⟨indexed.placed client member, fun child nests => ?_⟩
  obtain ⟨container, found⟩ := exists_container_of_lt (nested.inner_lt_size nests)
  refine ⟨container, found, fun sub present => ?_, fun missing => ?_⟩
  · obtain ⟨subMember, here⟩ := indexed.clientFor?_iff.mp present
    rcases build_origin nested subMember with ⟨-, root⟩ | ⟨parent, listed, link, -, under⟩
    · rw [here] at root
      exact absurd root (not_root_of_nests nested member nests)
    · rw [here] at under
      have same := indexed.eq_of_container_eq listed member (nested.nests_unique under nests)
      rw [link, same]
  · cases qualifies : rule.qualifies container with
    | false => exact qualifies
    | true =>
        have promoted := (clientFor?_isSome_iff nested member nests).mpr ⟨container, found, qualifies⟩
        rw [missing] at promoted
        cases promoted

private theorem inside_eq_nestedClients (nested : graph.WellNested) {client : Client}
    (member : client ∈ (build graph rule).clients) :
    (build graph rule).clientsInside client = (build graph rule).nestedClients client := by
  have indexed : (build graph rule).Indexed := build_indexed nested
  obtain ⟨container, found⟩ : ∃ container, graph.container? client.container = some container :=
    exists_container_of_lt (indexed.placed client member)
  have containers : ((build graph rule).clientsInside client).map Client.container =
      ((build graph rule).nestedClients client).map Client.container := by
    rw [clientsInside_containers indexed, nestedClients_containers nested member found, housed, nestedIn,
      build_graph, found]
  rw [← indexed.filterMap_containers fun sub inside => ((mem_clientsInside_iff indexed).mp inside).1,
    containers]
  exact indexed.filterMap_containers fun sub inside => (mem_nestedClients.mp inside).1

theorem exists_listing (nested : graph.WellNested) {start : Client}
    (member : start ∈ (build graph rule).clients) :
    ∃ listed, (build graph rule).Listing start listed := by
  have indexed : (build graph rule).Indexed := build_indexed nested
  obtain ⟨listed, swept⟩ : ∃ listed, sweep (build graph rule).clientsInside
      (build graph rule).size [start] = start :: listed :=
    ⟨_, sweep_eq_queue_append _ _ _⟩
  refine ⟨listed, indexed, nested, member, swept, fun client taken => ?_⟩
  have reached : Reaches (build graph rule).clientsInside [start] client :=
    reaches_of_mem_sweep (swept ▸ taken)
  exact build_listable nested (mem_clients_of_reaches indexed member reached)

/-- Ids rise from parents to their sub-clients, and the sub-clients of a later parent come
later. -/
private theorem build_rising (nested : graph.WellNested) :
    Rising (build graph rule).nestedClients Client.id where
  within := fun client => (build_indexed nested).clients_pairwise.sublist List.filter_sublist
  down := by
    intro client sub inside
    obtain ⟨member, link⟩ := mem_nestedClients.mp inside
    exact (parent_of_link nested member link).1
  across := by
    intro first second before sub inFirst other inSecond
    have indexed : (build graph rule).Indexed := build_indexed nested
    obtain ⟨subMember, subLink⟩ := mem_nestedClients.mp inFirst
    obtain ⟨otherMember, otherLink⟩ := mem_nestedClients.mp inSecond
    -- any other order of the two would let parents go back
    rcases Nat.lt_trichotomy sub.id other.id with earlier | same | later
    · exact earlier
    · rw [indexed.eq_of_id_eq subMember otherMember same, otherLink, Option.some.injEq] at subLink
      exact absurd subLink (Nat.ne_of_gt before)
    · have back := indexed.rel_of_id_lt (build_parents_rise nested) otherMember subMember later
      exact absurd (back _ _ otherLink subLink) (Nat.not_le.mpr before)

theorem sweep_nestedClients (nested : graph.WellNested) {start : Client} {listed : List Client}
    (listing : (build graph rule).Listing start listed) :
    sweep (build graph rule).nestedClients (build graph rule).size [start] = start :: listed := by
  rw [← listing.swept]
  exact (sweep_congr fun client reached => inside_eq_nestedClients nested
    (mem_clients_of_reaches listing.indexed listing.member reached)).symm

/-- A recursive listing runs in step with any sweep whose entries list what the clients do. -/
theorem listing_forall₂ {β : Type} {below : β → List β} {R : Client → β → Prop}
    (nested : graph.WellNested)
    (alike : ∀ client entry, R client entry →
      List.Forall₂ R ((build graph rule).nestedClients client) (below entry))
    {start : Client} {entry : β} (related : R start entry) {listed : List Client}
    (listing : (build graph rule).Listing start listed) :
    Settled below (build graph rule).size [entry] ∧
      List.Forall₂ R (start :: listed) (sweep below (build graph rule).size [entry]) := by
  have begin : List.Forall₂ R [start] [entry] := .cons related .nil
  have settled : Settled (build graph rule).nestedClients (build graph rule).size [start] := by
    have taken := inside_settled listing.indexed listing.nested listing.member
    unfold Settled at taken ⊢
    rw [sweep_nestedClients nested listing, ← listing.swept]
    exact taken
  have swept := sweep_forall₂ alike (build graph rule).size begin
  rw [sweep_nestedClients nested listing] at swept
  exact ⟨settled.of_forall₂ alike begin, swept⟩

private theorem listing_rises (nested : graph.WellNested) {start : Client} {listed : List Client}
    (listing : (build graph rule).Listing start listed) :
    listed.Pairwise fun first second => first.id < second.id := by
  have rising : Rising (build graph rule).nestedClients Client.id := build_rising nested
  have ahead : ∀ upper ∈ [start], ∀ lower ∈ (build graph rule).nestedClients upper,
      ∀ entry ∈ [start], entry.id < lower.id := by
    intro upper first lower inside entry only
    rw [List.mem_singleton.mp first] at inside
    rw [List.mem_singleton.mp only]
    exact rising.down start lower inside
  have sorted := rising.sweep_pairwise (build graph rule).size (List.pairwise_singleton _ start) ahead
  rw [sweep_nestedClients nested listing] at sorted
  exact (List.pairwise_cons.mp sorted).2

theorem steps_iff_links (nested : graph.WellNested) {start client : Client}
    (member : start ∈ (build graph rule).clients) :
    Relation.TransGen (fun upper lower => lower ∈ (build graph rule).clientsInside upper)
        start client ↔
      client ∈ (build graph rule).clients ∧
        Relation.TransGen (build graph rule).LinksTo client start := by
  have indexed : (build graph rule).Indexed := build_indexed nested
  have step : ∀ upper ∈ (build graph rule).clients, ∀ lower,
      lower ∈ (build graph rule).clientsInside upper ↔
        lower ∈ (build graph rule).clients ∧ (build graph rule).LinksTo lower upper := by
    intro upper present lower
    rw [inside_eq_nestedClients nested present, mem_nestedClients]
    constructor
    · rintro ⟨lowerMember, link⟩
      exact ⟨lowerMember, (indexed.linksTo_iff lowerMember).mpr ⟨present, link⟩⟩
    · rintro ⟨lowerMember, links⟩
      exact ⟨lowerMember, ((indexed.linksTo_iff lowerMember).mp links).2⟩
  constructor
  · intro steps
    induction steps with
    | single inside =>
        obtain ⟨present, links⟩ := (step _ member _).mp inside
        exact ⟨present, .single links⟩
    | tail _ inside ih =>
        obtain ⟨present, links⟩ := (step _ ih.1 _).mp inside
        exact ⟨present, .head links ih.2⟩
  · rintro ⟨present, links⟩
    induction links using Relation.TransGen.head_induction_on with
    | single link => exact .single ((step _ member _).mpr ⟨present, link⟩)
    | head link _ ih =>
        have upper := ((indexed.linksTo_iff present).mp link).1
        exact (ih upper).tail ((step _ upper _).mpr ⟨present, link⟩)

theorem subClients_direct (nested : graph.WellNested) {client : Client}
    (member : client ∈ (build graph rule).clients) :
    (build graph rule).subClients client.id false =
      .ok ((build graph rule).nestedClients client) := by
  simp only [subClients, (build_indexed nested).client?_id member, Bool.false_eq_true, if_false]
  rw [directSubClients_eq_ok_iff, inside_eq_nestedClients nested member]
  exact ⟨build_listable nested member, rfl⟩

theorem subClients_recursive (nested : graph.WellNested) {client : Client}
    (member : client ∈ (build graph rule).clients) :
    ∃ listed, (build graph rule).Listing client listed ∧
      (build graph rule).subClients client.id true = .ok listed := by
  obtain ⟨listed, listing⟩ := exists_listing nested member
  have indexed : (build graph rule).Indexed := build_indexed nested
  exact ⟨listed, listing, (subClients_eq_ok_iff indexed nested member).mpr listing⟩

/-- Listings follow the parent links of a tree. -/
structure ListsByLinks (tree : ClientTree) : Prop where
  /-- The direct listing of a client gives those whose parent it is, in the order of ids. -/
  direct : ∀ client ∈ tree.clients, ∃ listed, tree.subClients client.id false = .ok listed ∧
    listed.Pairwise (fun first second => first.id < second.id) ∧
    ∀ sub, sub ∈ listed ↔ sub ∈ tree.clients ∧ sub.parent = some client.id
  /-- The recursive one gives those from which one or more parent links lead to it. -/
  recursive : ∀ client ∈ tree.clients, ∃ listed, tree.subClients client.id true = .ok listed ∧
    listed.Pairwise (fun first second => first.id < second.id) ∧
    ∀ sub, sub ∈ listed ↔ sub ∈ tree.clients ∧ Relation.TransGen tree.LinksTo sub client
  /-- Only a position outside the tree fails. -/
  failing : ∀ id recursive failure, tree.subClients id recursive = .error failure ↔
    tree.size ≤ id ∧ failure = .unknownClient id

theorem build_listsByLinks (reachable : graph.Reachable) (rule : PromotionRule) :
    (build graph rule).ListsByLinks := by
  have nested : graph.WellNested := reachable.wellNested
  have indexed : (build graph rule).Indexed := build_indexed nested
  refine ⟨?_, ?_, ?_⟩
  · intro client member
    refine ⟨_, subClients_direct nested member, ?_, fun sub => mem_nestedClients⟩
    exact (build_rising nested).within client
  · intro client member
    obtain ⟨listed, listing, success⟩ := subClients_recursive nested member
    exact ⟨listed, success, listing_rises nested listing,
      fun sub => listing.mem_iff_steps.trans (steps_iff_links nested member)⟩
  · intro id recursive failure
    cases found : (build graph rule).client? id with
    | none =>
        have absent : (build graph rule).size ≤ id := List.getElem?_eq_none_iff.mp found
        simp [subClients, found, absent, eq_comm]
    | some client =>
        have present := lt_size_of_client? found
        obtain ⟨member, rfl⟩ := indexed.client?_iff.mp found
        have succeeds : ∃ listed, (build graph rule).subClients client.id recursive = .ok listed := by
          cases recursive with
          | false => exact ⟨_, subClients_direct nested member⟩
          | true =>
              obtain ⟨listed, -, success⟩ := subClients_recursive nested member
              exact ⟨listed, success⟩
        obtain ⟨listed, success⟩ := succeeds
        rw [success]
        constructor
        · intro failed
          cases failed
        · rintro ⟨absent, -⟩
          exact absurd present (Nat.not_lt.mpr absent)

theorem build_listsByLinks_twoServices :
    twoServices.Reachable ∧ (build twoServices .nonEmpty).ListsByLinks ∧
      (build twoServices .nonEmpty).subClients 0 true =
        .ok [⟨2, "D", 3, some 0⟩, ⟨3, "E", 4, some 0⟩] :=
  ⟨reachable_twoServices, build_listsByLinks reachable_twoServices .nonEmpty, by decide⟩

end SdkClients.ClientTree
