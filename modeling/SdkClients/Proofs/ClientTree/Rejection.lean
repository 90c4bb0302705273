import SdkClients.Proofs.ClientTree.Agreement
import SdkClients.Proofs.ClientTree.Naming

set_option autoImplicit false

/-!
What a stricter rule leaves out.

A rejected container holds nothing. When only containers with content or a mark are promoted,
the tree is therefore the full one without the clients of rejected containers: nothing that lies
deeper is cut off, and what stays keeps its order, its name, its parent and its place in every
listing.
-/

namespace SdkClients

namespace ContainerGraph

variable {graph : ContainerGraph}

instance (graph : ContainerGraph) (rule : PromotionRule) (id : ContainerId) :
    Decidable (graph.Qualifies rule id) :=
  decidable_of_iff _ qualifies_iff.symm

private theorem unmarked_iff :
    (∀ id, graph.isService id = false) ↔
      ∀ id ∈ List.range graph.size, graph.isService id = false := by
  constructor
  · intro unmarked id _
    exact unmarked id
  · intro unmarked id
    cases service : graph.isService id with
    | false => rfl
    | true =>
        have present := List.mem_range.mpr (lt_size_of_isService service)
        rw [unmarked id present] at service
        cases service

instance (graph : ContainerGraph) (id : ContainerId) : Decidable (graph.IsClientRoot id) :=
  decidable_of_iff
    ((graph.isService id = true ∧ ∀ outer ∈ graph.ancestors id, graph.isService outer = false) ∨
      (id = root ∧ ∀ other ∈ List.range graph.size, graph.isService other = false))
    (or_congr_right (and_congr_right fun _ => unmarked_iff.symm))

/-- A root, or a container that the stricter rule promotes. -/
def Kept (graph : ContainerGraph) (id : ContainerId) : Prop :=
  graph.IsClientRoot id ∨ graph.Qualifies .nonEmpty id

instance (graph : ContainerGraph) (id : ContainerId) : Decidable (graph.Kept id) :=
  inferInstanceAs (Decidable (_ ∨ _))

private theorem qualifies_of_isService {id : ContainerId} (service : graph.isService id = true) :
    graph.Qualifies .nonEmpty id := by
  cases found : graph.container? id with
  | none => simp [isService, found] at service
  | some container =>
      have marked : container.service = true := by simpa [isService, found] using service
      exact ⟨container, found, by simp [PromotionRule.qualifies, marked]⟩

/-- A nested container that is a root is a service, and services are promoted. -/
private theorem WellNested.kept_iff_of_nests (nested : graph.WellNested) {outer inner : ContainerId}
    (nests : graph.Nests outer inner) : graph.Kept inner ↔ graph.Qualifies .nonEmpty inner := by
  constructor
  · rintro ((⟨service, -⟩ | ⟨rfl, -⟩) | qualifies)
    · exact qualifies_of_isService service
    · exact absurd (nested.nests_lt nests) (Nat.not_lt_zero outer)
    · exact qualifies
  · intro qualifies
    exact .inr qualifies

private theorem promoted_of_not_kept {id : ContainerId} (dropped : ¬ graph.Kept id) :
    graph.promoted .allNested id = [] := by
  refine List.eq_nil_iff_forall_not_mem.mpr fun inner member => ?_
  have nests : graph.Nests id inner := nests_of_mem_promoted id inner member
  exact dropped (.inr (qualifies_of_nests .nonEmpty nests))

private theorem promoted_filter_qualifies (id : ContainerId) :
    (graph.promoted .allNested id).filter (fun child => graph.Qualifies .nonEmpty child) =
      graph.promoted .nonEmpty id := by
  rw [promoted_eq_filter, promoted_eq_filter, List.filter_filter]
  refine List.filter_congr fun child _ => ?_
  rw [Bool.eq_iff_iff, Bool.and_eq_true, decide_eq_true_eq, ← qualifies_iff, ← qualifies_iff]
  constructor
  · intro both
    exact both.1
  · rintro ⟨container, found, qualifies⟩
    exact ⟨⟨container, found, qualifies⟩, container, found, rfl⟩

private theorem WellNested.promoted_filter_kept (nested : graph.WellNested) (id : ContainerId) :
    (graph.promoted .allNested id).filter (fun child => graph.Kept child) =
      graph.promoted .nonEmpty id := by
  rw [← promoted_filter_qualifies]
  refine List.filter_congr fun child member => ?_
  have nests : graph.Nests id child := nests_of_mem_promoted id child member
  exact decide_eq_decide.mpr (nested.kept_iff_of_nests nests)

/-- A sweep that goes to what the stricter rule promotes drops what is not kept. -/
private theorem WellNested.sweep_nonEmpty (nested : graph.WellNested) {fuel : Nat}
    {queue : List ContainerId} (settled : Settled (graph.promoted .allNested) fuel queue) :
    sweep (graph.promoted .nonEmpty) fuel (queue.filter fun id => graph.Kept id) =
      (sweep (graph.promoted .allNested) fuel queue).filter fun id => graph.Kept id := by
  have leaf : ∀ id, decide (graph.Kept id) = false → graph.promoted .allNested id = [] :=
    fun id dropped => promoted_of_not_kept (of_decide_eq_false dropped)
  rw [sweep_filter leaf settled]
  exact sweep_congr fun id _ => (nested.promoted_filter_kept id).symm

private theorem WellNested.clientContainers_nonEmpty (nested : graph.WellNested) :
    graph.clientContainers .nonEmpty =
      (graph.clientContainers .allNested).filter fun id => graph.Kept id := by
  have roots : graph.clientRoots.filter (fun id => graph.Kept id) = graph.clientRoots := by
    refine List.filter_eq_self.mpr fun id member => decide_eq_true ?_
    exact .inl (nested.mem_clientRoots_iff.mp member)
  unfold clientContainers
  rw [← nested.sweep_nonEmpty (nested.clients_settled .allNested), roots]

end ContainerGraph

namespace ClientTree

open ContainerGraph

variable {graph : ContainerGraph} {rule other : PromotionRule}

/-! ### What is said about a client without its number -/

structure Profile where
  container : ContainerId
  name : String
  /-- The container of the parent. -/
  parent : Option ContainerId
  qualifiedName : Option String
deriving DecidableEq

def profile (tree : ClientTree) (client : Client) : Profile :=
  ⟨client.container, client.name, (tree.parent? client.id).map Client.container,
    tree.qualifiedName? client.id⟩

private theorem parent?_container (nested : graph.WellNested) {client : Client}
    (member : client ∈ (build graph rule).clients) :
    ((build graph rule).parent? client.id).map Client.container =
      if client.container ∈ graph.clientRoots then none
      else graph.parentOf? client.container := by
  have indexed : (build graph rule).Indexed := build_indexed nested
  have located := indexed.client?_id member
  rcases build_origin nested member with ⟨parentless, root⟩ | ⟨parent, listed, link, -, nests⟩
  · rw [if_pos root, parent?, located, Option.bind_some, parentless]
    rfl
  · rw [if_neg (not_root_of_nests nested listed nests), parent?, located, Option.bind_some, link,
      Option.bind_some, indexed.client?_id listed, Option.map_some, nested.nests_iff.mp nests]

/-- A container decides what is said about its client, whatever the rule. -/
private theorem profile_eq_of_container (nested : graph.WellNested) {first second : Client}
    (left : first ∈ (build graph rule).clients) (right : second ∈ (build graph other).clients)
    (same : first.container = second.container) :
    (build graph rule).profile first = (build graph other).profile second := by
  obtain ⟨container, found, name⟩ := build_named left
  obtain ⟨path, named⟩ := exists_named nested left
  have sameName : second.name = container.name := name_of_found right (same ▸ found)
  unfold profile
  rw [parent?_container nested left, parent?_container nested right,
    qualifiedName?_of_named nested left named, qualifiedName?_of_named nested right (same ▸ named),
    name, sameName, same]

private theorem profiles_eq_of_containers (nested : graph.WellNested) {left right : List Client}
    (inLeft : ∀ client ∈ left, client ∈ (build graph rule).clients)
    (inRight : ∀ client ∈ right, client ∈ (build graph other).clients)
    (same : left.map Client.container = right.map Client.container) :
    left.map (build graph rule).profile = right.map (build graph other).profile := by
  induction left generalizing right with
  | nil =>
      rw [List.map_eq_nil_iff.mp same.symm]
      rfl
  | cons first left ih =>
      cases right with
      | nil => cases same
      | cons second right =>
          obtain ⟨firstIn, leftIn⟩ := List.forall_mem_cons.mp inLeft
          obtain ⟨secondIn, rightIn⟩ := List.forall_mem_cons.mp inRight
          obtain ⟨sameHead, sameTail⟩ := List.cons.inj same
          rw [List.map_cons, List.map_cons, ih leftIn rightIn sameTail,
            profile_eq_of_container nested firstIn secondIn sameHead]

/-! ### Listings by container -/

private theorem sameContainers {clients : List Client} {ids : List ContainerId}
    (related : List.Forall₂ (fun client id => client ∈ (build graph rule).clients ∧
      client.container = id) clients ids) :
    clients.map Client.container = ids := by
  induction related with
  | nil => rfl
  | cons first _ ih => rw [List.map_cons, ih, first.2]

private theorem listing_containers (nested : graph.WellNested) {start : Client}
    {listed : List Client}
    (listing : (build graph rule).Listing start listed) :
    start.container :: listed.map Client.container =
      sweep (graph.promoted rule) graph.size [start.container] := by
  have alike : ∀ client id, client ∈ (build graph rule).clients ∧ client.container = id →
      List.Forall₂ (fun client id => client ∈ (build graph rule).clients ∧ client.container = id)
        ((build graph rule).nestedClients client) (graph.promoted rule id) := by
    rintro client _ ⟨member, rfl⟩
    rw [← build_nested nested member, List.forall₂_map_right_iff, List.forall₂_same]
    intro sub inside
    exact ⟨(mem_nestedClients.mp inside).1, rfl⟩
  obtain ⟨settled, related⟩ := listing_forall₂ nested alike ⟨listing.member, rfl⟩ listing
  rw [settled.of_le (build_size_le nested)]
  exact sameContainers related

private theorem kept_of_member (nested : graph.WellNested) {client : Client}
    (member : client ∈ (build graph .nonEmpty).clients) : graph.Kept client.container := by
  rcases (exists_client_iff nested).mp ⟨client, member, rfl⟩ with root | ⟨-, qualifies⟩
  · exact .inl root
  · exact .inr qualifies

private theorem exists_full (nested : graph.WellNested) {client : Client}
    (member : client ∈ (build graph .nonEmpty).clients) :
    ∃ full ∈ (build graph .allNested).clients, full.container = client.container := by
  have listed : client.container ∈ (build graph .nonEmpty).clients.map Client.container :=
    List.mem_map_of_mem member
  rw [build_containers nested, nested.clientContainers_nonEmpty] at listed
  have wide := (List.mem_filter.mp listed).1
  rw [← build_containers nested] at wide
  exact List.mem_map.mp wide

private theorem listing_nonEmpty (nested : graph.WellNested) {client full : Client}
    (same : full.container = client.container) {listed all : List Client}
    (narrow : (build graph .nonEmpty).Listing client listed)
    (wide : (build graph .allNested).Listing full all) :
    listed.map Client.container =
      (all.map Client.container).filter fun id => graph.Qualifies .nonEmpty id := by
  have start : ∀ ids : List ContainerId,
      (client.container :: ids).filter (fun id => graph.Kept id) =
        client.container :: ids.filter fun id => graph.Kept id :=
    fun _ => List.filter_cons_of_pos (decide_eq_true (kept_of_member nested narrow.member))
  have forest : Forest (graph.promoted .allNested) [client.container] :=
    nested.forest_singleton nests_of_mem_promoted (nested.promoted_nodup .allNested) _
  have present : ∀ id ∈ [client.container], id < graph.size := by
    intro id only
    rw [List.mem_singleton.mp only]
    exact narrow.indexed.placed client narrow.member
  have swept := nested.sweep_nonEmpty (nested.settled forest nests_of_mem_promoted present)
  rw [start, List.filter_nil, ← listing_containers nested narrow, ← same,
    ← listing_containers nested wide, same, start] at swept
  rw [(List.cons.inj swept).2]
  -- below a client every container is nested, so being a root does not matter there
  refine List.filter_congr fun id member => ?_
  obtain ⟨sub, inside, rfl⟩ := List.mem_map.mp member
  obtain ⟨outer, -, nests⟩ := Relation.TransGen.tail'_iff.mp (wide.mem_iff.mp inside).2
  exact decide_eq_decide.mpr (nested.kept_iff_of_nests nests)

private theorem subClients_nonEmpty (nested : graph.WellNested) {client full : Client}
    (member : client ∈ (build graph .nonEmpty).clients)
    (fullMember : full ∈ (build graph .allNested).clients)
    (same : full.container = client.container) (recursive : Bool) :
    ∃ listed all, (build graph .nonEmpty).subClients client.id recursive = .ok listed ∧
      (build graph .allNested).subClients full.id recursive = .ok all ∧
      listed.map Client.container =
        (all.map Client.container).filter fun id => graph.Qualifies .nonEmpty id := by
  cases recursive with
  | false =>
      refine ⟨_, _, subClients_direct nested member, subClients_direct nested fullMember, ?_⟩
      rw [build_nested nested member, build_nested nested fullMember, same,
        promoted_filter_qualifies]
  | true =>
      obtain ⟨listed, narrow, success⟩ := subClients_recursive nested member
      obtain ⟨all, wide, fullSuccess⟩ := subClients_recursive nested fullMember
      exact ⟨listed, all, success, fullSuccess, listing_nonEmpty nested same narrow wide⟩

private theorem profiles_nonEmpty (nested : graph.WellNested) :
    (build graph .nonEmpty).clients.map (build graph .nonEmpty).profile =
      ((build graph .allNested).clients.map (build graph .allNested).profile).filter
        fun profile => graph.Kept profile.container := by
  have containers : (build graph .nonEmpty).clients.map Client.container =
      ((build graph .allNested).clients.filter fun client => graph.Kept client.container).map
        Client.container := by
    rw [build_containers nested, nested.clientContainers_nonEmpty, ← build_containers nested,
      List.filter_map]
    rfl
  rw [List.filter_map]
  exact profiles_eq_of_containers nested (fun _ member => member)
    (fun _ member => (List.mem_filter.mp member).1) containers

/-- A tree holds another one's clients for the containers that are kept, under other numbers. -/
structure Narrows (narrow wide : ClientTree) (graph : ContainerGraph) : Prop where
  /-- The clients of kept containers come in the same order, and the same is said about them. -/
  profiles : narrow.clients.map narrow.profile =
    (wide.clients.map wide.profile).filter fun profile => graph.Kept profile.container
  /-- Listings name the same containers in the same order, without the rejected ones. -/
  listings : ∀ client ∈ narrow.clients, ∃ full, wide.clientFor? client.container = some full ∧
    ∀ recursive, ∃ listed all, narrow.subClients client.id recursive = .ok listed ∧
      wide.subClients full.id recursive = .ok all ∧
      listed.map Client.container =
        (all.map Client.container).filter fun id => graph.Qualifies .nonEmpty id

/-- The tree of the promoted containers is the full tree without the rejected ones. -/
theorem build_nonEmpty_narrows (reachable : graph.Reachable) :
    (build graph .nonEmpty).Narrows (build graph .allNested) graph := by
  have nested : graph.WellNested := reachable.wellNested
  refine ⟨profiles_nonEmpty nested, fun client member => ?_⟩
  obtain ⟨full, fullMember, same⟩ := exists_full nested member
  have found := (build_indexed nested).clientFor?_container fullMember
  rw [same] at found
  exact ⟨full, found, fun recursive => subClients_nonEmpty nested member fullMember same recursive⟩

theorem build_nonEmpty_narrows_twoServices :
    twoServices.Reachable ∧
      (build twoServices .nonEmpty).Narrows (build twoServices .allNested) twoServices ∧
      (build twoServices .allNested).clients.map Client.container = [1, 2, 3, 5, 4] ∧
      (build twoServices .nonEmpty).clients.map Client.container = [1, 2, 3, 4] :=
  ⟨reachable_twoServices, build_nonEmpty_narrows reachable_twoServices, by decide, by decide⟩

end ClientTree

end SdkClients
