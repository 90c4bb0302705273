import SdkClients.Proofs.ClientTree.Promotion
import SdkClients.Proofs.ContainerGraph.ReadBack

set_option autoImplicit false

/-!
Graphs that read back to the same.

Positions of two graphs are alike when the same stands there. What lies right inside alike
containers is alike, entry by entry, so every step down from one root can be matched by a step
down from the other, and so can the way up again. The topmost services of such graphs match;
their order need not, because it is the order of the positions.
-/

namespace SdkClients.ContainerGraph

variable {first second : ContainerGraph}

def Alike (first second : ContainerGraph) (left right : ContainerId) : Prop :=
  ∃ subtree, first.readBack left = some subtree ∧ second.readBack right = some subtree

private theorem Alike.symm {left right : ContainerId} (alike : first.Alike second left right) :
    second.Alike first right left := by
  obtain ⟨subtree, here, there⟩ := alike
  exact ⟨subtree, there, here⟩

/-- Containers that say the same, with alike containers in their lists. -/
structure SaysTheSame (first second : ContainerGraph) (left right : Container) : Prop where
  name : left.name = right.name
  kind : left.kind = right.kind
  operations : left.operations = right.operations
  service : left.service = right.service
  client : left.client = right.client
  namespaces : List.Forall₂ (first.Alike second) left.namespaces right.namespaces
  interfaces : List.Forall₂ (first.Alike second) left.interfaces right.interfaces

theorem Alike.exists_containers (firstNested : first.WellNested) (secondNested : second.WellNested)
    {left right : ContainerId} (alike : first.Alike second left right) :
    ∃ here there, first.container? left = some here ∧ second.container? right = some there ∧
      first.SaysTheSame second here there := by
  obtain ⟨subtree, readHere, readThere⟩ := alike
  obtain ⟨here, _, _, foundHere, namespacesHere, interfacesHere, rfl⟩ :=
    firstNested.readBack_eq_some_iff.mp readHere
  obtain ⟨there, _, _, foundThere, namespacesThere, interfacesThere, same⟩ :=
    secondNested.readBack_eq_some_iff.mp readThere
  simp only [Subtree.mk.injEq] at same
  obtain ⟨name, kind, operations, service, client, rfl, rfl⟩ := same
  exact ⟨here, there, foundHere, foundThere, name, kind, operations, service, client,
    forall₂_of_common namespacesHere namespacesThere,
    forall₂_of_common interfacesHere interfacesThere⟩

section Inside

variable (firstNested : first.WellNested) (secondNested : second.WellNested)
  {left right : ContainerId} (alike : first.Alike second left right)

include firstNested secondNested alike

private theorem Alike.nestedIn :
    List.Forall₂ (first.Alike second) (first.nestedIn left) (second.nestedIn right) := by
  obtain ⟨here, there, foundHere, foundThere, same⟩ :=
    alike.exists_containers firstNested secondNested
  unfold ContainerGraph.nestedIn
  rw [foundHere, foundThere]
  exact List.rel_append same.namespaces same.interfaces

private theorem Alike.isService : first.isService left = second.isService right := by
  obtain ⟨here, there, foundHere, foundThere, same⟩ :=
    alike.exists_containers firstNested secondNested
  unfold ContainerGraph.isService
  rw [foundHere, foundThere, Option.map_some, Option.map_some, same.service]

private theorem Alike.qualifies (rule : PromotionRule) :
    ((first.container? left).map rule.qualifies).getD false =
      ((second.container? right).map rule.qualifies).getD false := by
  obtain ⟨here, there, foundHere, foundThere, same⟩ :=
    alike.exists_containers firstNested secondNested
  have empty : here.isEmpty = there.isEmpty := by
    unfold Container.isEmpty
    rw [same.operations, isEmpty_eq_of_forall₂ same.namespaces,
      isEmpty_eq_of_forall₂ same.interfaces]
  rw [foundHere, foundThere, Option.map_some, Option.map_some]
  cases rule with
  | allNested => rfl
  | nonEmpty => simp only [PromotionRule.qualifies, empty, same.service, same.client]

end Inside

theorem Alike.promoted (firstNested : first.WellNested) (secondNested : second.WellNested)
    {left right : ContainerId} (alike : first.Alike second left right) (rule : PromotionRule) :
    List.Forall₂ (first.Alike second) (first.promoted rule left) (second.promoted rule right) := by
  rw [promoted_eq_filter, promoted_eq_filter]
  exact filter_forall₂ (fun _ _ same => same.qualifies firstNested secondNested rule)
    (alike.nestedIn firstNested secondNested)

/-! ### Steps down that match -/

/-- Positions that the same steps down lead to from the two roots. -/
inductive Matched (first second : ContainerGraph) : ContainerId → ContainerId → Prop
  | top : Matched first second root root
  | inside {left right inner outer : ContainerId} : Matched first second left right →
      (inner, outer) ∈ (first.nestedIn left).zip (second.nestedIn right) →
      Matched first second inner outer

section Twins

variable (firstNested : first.WellNested) (secondNested : second.WellNested)
  (same : first.Alike second root root)

include firstNested secondNested same

private theorem Matched.alike {left right : ContainerId}
    (matched : first.Matched second left right) :
    first.Alike second left right := by
  induction matched with
  | top => exact same
  | inside _ listed ih => exact List.forall₂_zip (ih.nestedIn firstNested secondNested) listed

private theorem Matched.exists_right {left : ContainerId} (present : left < first.size) :
    ∃ right, first.Matched second left right := by
  -- a container stands behind the one around it, which is matched first
  induction left using Nat.strongRecOn with
  | ind left ih =>
      by_cases isTop : left = root
      · rw [isTop]
        exact ⟨root, .top⟩
      · obtain ⟨container, found⟩ := exists_container_of_lt present
        obtain ⟨outer, link, before⟩ := firstNested.upward left container found isTop
        have nests : first.Nests outer left :=
          firstNested.nests_iff.mpr (parentOf?_eq_some_iff.mpr ⟨container, found, link⟩)
        obtain ⟨partner, matched⟩ := ih outer before (Nat.lt_trans before present)
        have alike := matched.alike firstNested secondNested same
        obtain ⟨right, paired⟩ := exists_mem_zip_of_forall₂
          (alike.nestedIn firstNested secondNested) (mem_nestedIn_iff.mpr nests)
        exact ⟨right, .inside matched paired⟩

private theorem Matched.any_around {left right : ContainerId}
    (matched : first.Matched second left right) :
    (first.ancestors left).any first.isService = (second.ancestors right).any second.isService := by
  induction matched with
  | top =>
      rw [ancestors_of_parentless firstNested.parentOf?_root,
        ancestors_of_parentless secondNested.parentOf?_root]
      rfl
  | @inside left right inner outer matched listed ih =>
      obtain ⟨nestedHere, nestedThere⟩ := List.of_mem_zip listed
      have linkHere := firstNested.nests_iff.mp (mem_nestedIn_iff.mp nestedHere)
      have linkThere := secondNested.nests_iff.mp (mem_nestedIn_iff.mp nestedThere)
      have service := (matched.alike firstNested secondNested same).isService firstNested secondNested
      rw [firstNested.ancestors_of_parent linkHere, secondNested.ancestors_of_parent linkThere,
        List.any_cons, List.any_cons, service, ih]

private theorem Matched.mem_topServices {left right : ContainerId}
    (matched : first.Matched second left right) (top : left ∈ first.topServices) :
    right ∈ second.topServices := by
  have alike := matched.alike firstNested secondNested same
  have service := alike.isService firstNested secondNested
  have around := matched.any_around firstNested secondNested same
  obtain ⟨marked, outermost⟩ := mem_topServices_iff.mp top
  have clear : (first.ancestors left).any first.isService = false :=
    List.any_eq_false.mpr fun outer member => by simp [outermost outer member]
  rw [clear] at around
  rw [service] at marked
  refine mem_topServices_iff.mpr ⟨marked, fun outer member => ?_⟩
  simpa using List.any_eq_false.mp around.symm outer member

private theorem exists_topService_right {left : ContainerId} (top : left ∈ first.topServices) :
    ∃ right ∈ second.topServices, first.Alike second left right := by
  have present : left < first.size := lt_size_of_isService (mem_topServices_iff.mp top).1
  obtain ⟨right, matched⟩ := Matched.exists_right firstNested secondNested same present
  exact ⟨right, matched.mem_topServices firstNested secondNested same top,
    matched.alike firstNested secondNested same⟩

end Twins

/-- At most one service container is not inside another one. -/
def SingleTop (graph : ContainerGraph) : Prop :=
  ∀ one ∈ graph.topServices, ∀ other ∈ graph.topServices, one = other

instance (graph : ContainerGraph) : Decidable graph.SingleTop :=
  inferInstanceAs
    (Decidable (∀ one ∈ graph.topServices, ∀ other ∈ graph.topServices, one = other))

private theorem topServices_pairwise {graph : ContainerGraph} :
    graph.topServices.Pairwise (· < ·) :=
  List.pairwise_lt_range.sublist List.filter_sublist

private theorem SingleTop.eq_singleton {graph : ContainerGraph} (single : graph.SingleTop)
    {top : ContainerId} (member : top ∈ graph.topServices) : graph.topServices = [top] := by
  have sorted : graph.topServices.Pairwise (· < ·) := topServices_pairwise
  unfold SingleTop at single
  generalize graph.topServices = services at single member sorted
  cases services with
  | nil => cases member
  | cons head tail =>
      have here := single top member head List.mem_cons_self
      cases tail with
      | nil => rw [here]
      | cons next others =>
          have before : head < next := (List.pairwise_cons.mp sorted).1 next List.mem_cons_self
          have equal := single head List.mem_cons_self next (by simp)
          exact absurd before (equal ▸ Nat.lt_irrefl head)

/-- With one topmost service at most, the containers of the root clients match. -/
theorem clientRoots_alike (firstNested : first.WellNested) (secondNested : second.WellNested)
    (same : first.Alike second root root) (firstSingle : first.SingleTop)
    (secondSingle : second.SingleTop) :
    List.Forall₂ (first.Alike second) first.clientRoots second.clientRoots := by
  have matching : ∀ left ∈ first.topServices, ∃ right ∈ second.topServices,
      first.Alike second left right :=
    fun _ top => exists_topService_right firstNested secondNested same top
  have matchingBack : ∀ right ∈ second.topServices, ∃ left ∈ first.topServices,
      second.Alike first right left :=
    fun _ top => exists_topService_right secondNested firstNested same.symm top
  unfold clientRoots
  cases services : first.topServices with
  | nil =>
      have none : second.topServices = [] := by
        refine List.eq_nil_iff_forall_not_mem.mpr fun right member => ?_
        obtain ⟨left, listed, -⟩ := matchingBack right member
        rw [services] at listed
        cases listed
      rw [none]
      exact .cons same .nil
  | cons left others =>
      have member : left ∈ first.topServices := services ▸ List.mem_cons_self
      obtain ⟨right, top, alike⟩ := matching left member
      rw [secondSingle.eq_singleton top, ← services, firstSingle.eq_singleton member]
      exact .cons alike .nil

end SdkClients.ContainerGraph
