import SdkClients.Proofs.ClientTree.Building

set_option autoImplicit false

/-!
The client tree of a graph.

A built tree has one client for each root and for each promoted container inside a root, and
no others. Ids are positions, parents stand for the parent containers and come earlier, and
the clients of one parent follow the order in which its container lists what it holds. The
index leads from each of these containers to its client, because no container was put in twice.
-/

namespace SdkClients.ClientTree

open ContainerGraph

variable {graph : ContainerGraph} {rule : PromotionRule}

def rootClients (graph : ContainerGraph) : List Client := number graph none 0 graph.clientRoots

/-- The clients whose parent link leads to a client. -/
def nestedClients (tree : ClientTree) (client : Client) : List Client :=
  tree.clients.filter fun other => other.parent == some client.id

theorem mem_nestedClients {tree : ClientTree} {client other : Client} :
    other ∈ tree.nestedClients client ↔
      other ∈ tree.clients ∧ other.parent = some client.id := by
  simp only [nestedClients, List.mem_filter, beq_iff_eq]

@[simp] theorem build_graph : (build graph rule).graph = graph := rfl

theorem rootClients_containers (nested : graph.WellNested) :
    (rootClients graph).map Client.container = graph.clientRoots :=
  number_containers fun _ member => nested.lt_size_of_mem_clientRoots member

private theorem rootClients_ids :
    (rootClients graph).map Client.id = List.range' 0 (rootClients graph).length :=
  number_ids none 0 graph.clientRoots

theorem parent_of_mem_rootClients {client : Client} (member : client ∈ rootClients graph) :
    client.parent = none :=
  (mem_number member).1

/-- The clients and the index that are built are those of one run of the queue. -/
private theorem build_eq (graph : ContainerGraph) (rule : PromotionRule) :
    build graph rule =
      ⟨graph, rule, expand graph rule graph.size (rootClients graph) (rootClients graph).length,
        Keyed.ofList (indexOf
          (expand graph rule graph.size (rootClients graph) (rootClients graph).length))⟩ := by
  have rooted : Roster.pushAll graph none ⟨[], []⟩ [] graph.clientRoots =
      (.of (rootClients graph), (rootClients graph).map Client.id) :=
    pushAll_of [] none [] graph.clientRoots
  have ids : ([] ++ rootClients graph).map Client.id =
      List.range ([] ++ rootClients graph).length := by
    rw [List.nil_append, rootClients_ids, List.range_eq_range']
  have grown : Roster.grow graph rule graph.size (.of (rootClients graph))
      ((rootClients graph).map Client.id) =
      .of (expand graph rule graph.size (rootClients graph) (rootClients graph).length) :=
    grow_of graph.size [] (rootClients graph) ids
  simp only [build, rooted, grown]
  rfl

private theorem build_clients :
    (build graph rule).clients =
      expand graph rule graph.size (rootClients graph) (0 + (rootClients graph).length) := by
  rw [build_eq, Nat.zero_add]

private theorem build_byContainer :
    (build graph rule).byContainer = Keyed.ofList (indexOf (build graph rule).clients) := by
  rw [build_eq]

theorem build_containers (nested : graph.WellNested) :
    (build graph rule).clients.map Client.container = graph.clientContainers rule := by
  rw [build_clients, expand_containers, rootClients_containers nested]
  rfl

private theorem build_containers_nodup (nested : graph.WellNested) :
    ((build graph rule).clients.map Client.container).Nodup := by
  rw [build_containers nested]
  exact (nested.clientForest rule).sweep_nodup graph.size

/-- With enough fuel for one pass over the graph, more of it builds the same clients. -/
theorem build_clients_of_le (nested : graph.WellNested) {fuel : Nat} (enough : graph.size ≤ fuel) :
    (build graph rule).clients =
      expand graph rule fuel (rootClients graph) (0 + (rootClients graph).length) := by
  obtain ⟨more, rfl⟩ := Nat.exists_eq_add_of_le enough
  have settled := nested.clients_settled rule
  rw [← rootClients_containers nested] at settled
  rw [build_clients, expand_add _ settled more]

private theorem build_ids :
    (build graph rule).clients.map Client.id = List.range (build graph rule).size := by
  rw [size, List.range_eq_range', build_clients]
  exact expand_ids graph.size (rootClients graph) 0 rootClients_ids

theorem build_named {client : Client} (member : client ∈ (build graph rule).clients) :
    client.NamedIn graph := by
  rw [build_clients] at member
  exact expand_named _ _ _ (fun _ start => (mem_number start).2.2) client member

theorem build_size_le (nested : graph.WellNested) : (build graph rule).size ≤ graph.size := by
  have settled := nested.clients_settled rule
  rw [Settled, ← clientContainers, ← build_containers nested, List.length_map] at settled
  exact settled

theorem build_eq_append_brood (nested : graph.WellNested) :
    (build graph rule).clients = rootClients graph ++
      brood graph rule (0 + (rootClients graph).length) (build graph rule).clients := by
  calc (build graph rule).clients
      _ = rootClients graph ++ brood graph rule (0 + (rootClients graph).length)
          ((build graph rule).clients.take graph.size) := by
        rw [build_clients]
        exact expand_eq_queue_append graph.size (rootClients graph) _
      _ = rootClients graph ++
          brood graph rule (0 + (rootClients graph).length) (build graph rule).clients := by
        rw [List.take_of_length_le (build_size_le nested)]

/-- A client is a root or was put into the queue by the client of its container's parent. -/
theorem build_origin (nested : graph.WellNested) {client : Client}
    (member : client ∈ (build graph rule).clients) :
    (client.parent = none ∧ client.container ∈ graph.clientRoots) ∨
      ∃ parent ∈ (build graph rule).clients, client.parent = some parent.id ∧
        parent.id < client.id ∧ graph.Nests parent.container client.container := by
  rw [build_clients] at member ⊢
  have older : ∀ root ∈ rootClients graph, root.id < 0 + (rootClients graph).length :=
    fun root start => (id_of_mem_number start).2
  rcases expand_origin _ _ _ older client member with start | ⟨parent, listed, link, before, inside⟩
  · have here : client.container ∈ (rootClients graph).map Client.container :=
      List.mem_map_of_mem start
    rw [rootClients_containers nested] at here
    exact .inl ⟨parent_of_mem_rootClients start, here⟩
  · exact .inr ⟨parent, listed, link, before, nests_of_mem_promoted _ _ inside⟩

theorem build_indexed (nested : graph.WellNested) : (build graph rule).Indexed where
  ids := build_ids
  distinct := build_containers_nodup nested
  placed := by
    intro client member
    obtain ⟨container, found, -⟩ := build_named member
    exact lt_size_of_container? found
  linked := by
    intro client member link linked
    rcases build_origin nested member with ⟨parentless, -⟩ | ⟨parent, listed, here, before, -⟩
    · rw [parentless] at linked
      cases linked
    · rw [here, Option.some.injEq] at linked
      have inRange : parent.id ∈ (build graph rule).clients.map Client.id :=
        List.mem_map_of_mem listed
      rw [build_ids, List.mem_range] at inRange
      rw [← linked]
      exact ⟨inRange, Nat.ne_of_lt before⟩
  entered := by
    have distinct : Keyed.Distinct (indexOf (build graph rule).clients) :=
      distinct_indexOf_iff.mpr (build_containers_nodup nested)
    exact build_byContainer.trans (Keyed.ofList_of_distinct distinct)

theorem build_nested (nested : graph.WellNested) {client : Client}
    (member : client ∈ (build graph rule).clients) :
    ((build graph rule).nestedClients client).map Client.container =
      graph.promoted rule client.container := by
  obtain ⟨start, filtered⟩ : ∃ start, (brood graph rule (0 + (rootClients graph).length)
      (build graph rule).clients).filter (fun other => other.parent == some client.id) =
        number graph (some client.id) start (graph.promoted rule client.container) :=
    brood_filter (build_indexed nested).clients_pairwise member
  have noRoot : (rootClients graph).filter (fun other => other.parent == some client.id) = [] := by
    refine List.filter_eq_nil_iff.mpr fun other root => ?_
    simp [parent_of_mem_rootClients root]
  unfold nestedClients
  rw [build_eq_append_brood nested, List.filter_append, noRoot, List.nil_append, filtered]
  exact number_containers (promoted_present client.container)

theorem exists_root_above (nested : graph.WellNested) {client : Client}
    (member : client ∈ (build graph rule).clients) :
    ∃ top ∈ graph.clientRoots, Relation.ReflTransGen graph.Nests top client.container := by
  have inside : client.container ∈ (build graph rule).clients.map Client.container :=
    List.mem_map_of_mem member
  rw [build_containers nested, clientContainers, (nested.clients_settled rule).mem_iff] at inside
  obtain ⟨top, isTop, path⟩ := inside
  exact ⟨top, isTop, Relation.ReflTransGen.mono nests_of_mem_promoted _ _ path⟩

theorem not_root_of_nests (nested : graph.WellNested) {client : Client} {child : ContainerId}
    (member : client ∈ (build graph rule).clients) (nests : graph.Nests client.container child) :
    child ∉ graph.clientRoots := by
  intro root
  obtain ⟨top, isTop, path⟩ := exists_root_above nested member
  exact nested.clientRoots_apart isTop root (.tail' path nests)

theorem parent_eq_none_iff (nested : graph.WellNested) {client : Client}
    (member : client ∈ (build graph rule).clients) :
    client.parent = none ↔ graph.IsClientRoot client.container := by
  rw [← nested.mem_clientRoots_iff]
  rcases build_origin nested member with ⟨parentless, root⟩ | ⟨parent, listed, link, -, nests⟩
  · exact ⟨fun _ => root, fun _ => parentless⟩
  · constructor
    · intro parentless
      rw [parentless] at link
      cases link
    · intro root
      exact absurd root (not_root_of_nests nested listed nests)

theorem exists_client_iff (nested : graph.WellNested) {id : ContainerId} :
    (∃ client ∈ (build graph rule).clients, client.container = id) ↔
      graph.IsClientRoot id ∨
        (∃ top, graph.IsClientRoot top ∧ graph.Below top id) ∧ graph.Qualifies rule id := by
  rw [← nested.mem_clientContainers_iff, ← build_containers nested, List.mem_map]

theorem clientFor?_isSome_iff (nested : graph.WellNested) {client : Client} {child : ContainerId}
    (member : client ∈ (build graph rule).clients) (nests : graph.Nests client.container child) :
    ((build graph rule).clientFor? child).isSome = true ↔ graph.Qualifies rule child := by
  have present : ((build graph rule).clientFor? child).isSome = true ↔
      ∃ sub ∈ (build graph rule).clients, sub.container = child := by
    rw [Option.isSome_iff_exists]
    exact exists_congr fun sub => (build_indexed nested).clientFor?_iff
  rw [present, exists_client_iff nested]
  constructor
  · rintro (root | ⟨-, qualifies⟩)
    · exact absurd (nested.mem_clientRoots_iff.mpr root) (not_root_of_nests nested member nests)
    · exact qualifies
  · intro qualifies
    obtain ⟨top, isTop, path⟩ := exists_root_above nested member
    exact .inr ⟨⟨top, nested.mem_clientRoots_iff.mp isTop, .tail' path nests⟩, qualifies⟩

theorem build_parents_rise (nested : graph.WellNested) :
    (build graph rule).clients.Pairwise fun first second => ∀ former latter,
      first.parent = some former → second.parent = some latter → former ≤ latter := by
  rw [build_eq_append_brood nested]
  refine List.pairwise_append.mpr ⟨?_, brood_pairwise (build_indexed nested).clients_pairwise, ?_⟩
  · refine List.pairwise_of_forall_mem_list fun first left second _ former latter link _ => ?_
    rw [parent_of_mem_rootClients left] at link
    cases link
  · intro first left second _ former latter link
    rw [parent_of_mem_rootClients left] at link
    cases link

/-! ### Exactness -/

/-- What makes a tree of clients the client tree of a graph under a rule. -/
structure ExactFor (tree : ClientTree) (graph : ContainerGraph) (rule : PromotionRule) :
    Prop where
  /-- Roots have a client, and so do the promoted containers strictly inside a root. -/
  covered : ∀ id, (∃ client ∈ tree.clients, client.container = id) ↔
    graph.IsClientRoot id ∨
      (∃ top, graph.IsClientRoot top ∧ graph.Below top id) ∧ graph.Qualifies rule id
  /-- No container has two clients. -/
  single : ∀ first ∈ tree.clients, ∀ second ∈ tree.clients,
    first.container = second.container → first = second
  /-- A client carries its position as id, and its container's name. -/
  positional : ∀ position client, tree.client? position = some client →
    client.id = position ∧ client.NamedIn graph
  /-- Clients without a parent stand for the roots. -/
  parentless : ∀ client ∈ tree.clients,
    client.parent = none ↔ graph.IsClientRoot client.container
  /-- A parent comes earlier and stands for the parent container. -/
  parented : ∀ client ∈ tree.clients, ∀ link, client.parent = some link →
    link < client.id ∧ ∃ outer parent, graph.parentOf? client.container = some outer ∧
      tree.clientFor? outer = some parent ∧ parent.id = link
  /-- Looking up a container gives its client, and nothing for any other position. -/
  lookUp : ∀ id client, tree.clientFor? id = some client ↔
    client ∈ tree.clients ∧ client.container = id
  /-- The index leads from a container to its client, and from nothing else to anything. -/
  indexed : ∀ id position, Keyed.get? tree.byContainer id = some position ↔
    ∃ client, tree.client? position = some client ∧ client.container = id
  /-- Roots come first, in the order of their containers; then parents never go back. -/
  ordered : ∃ roots others, tree.clients = roots ++ others ∧
    (∀ client ∈ roots, client.parent = none) ∧ (∀ client ∈ others, client.parent ≠ none) ∧
    roots.Pairwise (fun first second => first.container < second.container) ∧
    others.Pairwise fun first second => ∀ former latter, first.parent = some former →
      second.parent = some latter → former ≤ latter
  /-- Siblings follow the namespaces of their parent's container and then its interfaces. -/
  siblings : ∀ client ∈ tree.clients, ∀ container,
    graph.container? client.container = some container →
      (tree.nestedClients client).map Client.container =
        (container.namespaces ++ container.interfaces).filter fun child =>
          (tree.clientFor? child).isSome

theorem parent_of_link (nested : graph.WellNested) {client : Client} {link : ClientId}
    (member : client ∈ (build graph rule).clients) (linked : client.parent = some link) :
    link < client.id ∧ ∃ outer parent, graph.parentOf? client.container = some outer ∧
      (build graph rule).clientFor? outer = some parent ∧ parent.id = link := by
  rcases build_origin nested member with ⟨parentless, -⟩ | ⟨parent, listed, here, before, nests⟩
  · rw [parentless] at linked
    cases linked
  · rw [here, Option.some.injEq] at linked
    rw [← linked]
    exact ⟨before, parent.container, parent, nested.nests_iff.mp nests,
      (build_indexed nested).clientFor?_container listed, rfl⟩

private theorem build_ordered (nested : graph.WellNested) :
    ∃ roots others, (build graph rule).clients = roots ++ others ∧
      (∀ client ∈ roots, client.parent = none) ∧ (∀ client ∈ others, client.parent ≠ none) ∧
      roots.Pairwise (fun first second => first.container < second.container) ∧
      others.Pairwise fun first second => ∀ former latter, first.parent = some former →
        second.parent = some latter → former ≤ latter := by
  refine ⟨_, _, build_eq_append_brood nested, fun _ root => parent_of_mem_rootClients root,
    ?_, ?_, brood_pairwise (build_indexed nested).clients_pairwise⟩
  · intro client member parentless
    obtain ⟨parent, -, link⟩ := parent_of_mem_brood member
    rw [parentless] at link
    cases link
  · have sorted : ((rootClients graph).map Client.container).Pairwise (· < ·) := by
      rw [rootClients_containers nested]
      exact clientRoots_pairwise
    exact List.pairwise_map.mp sorted

theorem nestedClients_containers (nested : graph.WellNested) {client : Client}
    {container : Container} (member : client ∈ (build graph rule).clients)
    (found : graph.container? client.container = some container) :
    ((build graph rule).nestedClients client).map Client.container =
      container.children.filter fun child => ((build graph rule).clientFor? child).isSome := by
  rw [build_nested nested member]
  simp only [promoted, found]
  refine List.filter_congr fun child listed => ?_
  have nests : graph.Nests client.container child := ⟨container, found, listed⟩
  rw [Bool.eq_iff_iff, clientFor?_isSome_iff nested member nests, qualifies_iff]

theorem build_exactFor (reachable : graph.Reachable) (rule : PromotionRule) :
    (build graph rule).ExactFor graph rule := by
  have nested : graph.WellNested := reachable.wellNested
  have indexed : (build graph rule).Indexed := build_indexed nested
  exact {
    covered := fun id => exists_client_iff nested
    single := fun first left second right same => indexed.eq_of_container_eq left right same
    positional := by
      intro position client found
      obtain ⟨member, here⟩ := indexed.client?_iff.mp found
      exact ⟨here, build_named member⟩
    parentless := fun client member => parent_eq_none_iff nested member
    parented := fun client member link linked => parent_of_link nested member linked
    lookUp := fun id client => indexed.clientFor?_iff
    indexed := fun id position => indexed.get?_iff_client?
    ordered := build_ordered nested
    siblings := fun client member container found =>
      nestedClients_containers nested member found }

theorem build_exactFor_twoServices :
    twoServices.Reachable ∧
      (build twoServices .nonEmpty).ExactFor twoServices .nonEmpty ∧
      (build twoServices .nonEmpty).clients =
        [⟨0, "B", 1, none⟩, ⟨1, "C", 2, none⟩, ⟨2, "D", 3, some 0⟩, ⟨3, "E", 4, some 0⟩] :=
  ⟨reachable_twoServices, build_exactFor reachable_twoServices .nonEmpty, by decide⟩

end SdkClients.ClientTree
