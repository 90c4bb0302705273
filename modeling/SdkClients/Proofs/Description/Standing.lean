import SdkClients.Proofs.ClientTree.Naming
import SdkClients.Proofs.Description.Layout
import SdkClients.Proofs.Description.Placement

set_option autoImplicit false

/-!
How placements stand in a graph.

A placement stands at a position when the graph holds the layout of its declaration there and
the names from a root container down to it are its path. The containers of the root clients
stand for the roots of the description, and what a graph promotes right inside a container
stands for what the rule promotes right inside its placement, in the same order.
-/

namespace SdkClients.ContainerGraph

open ContainerDecl

variable {graph : ContainerGraph}

/-! ### Pieces of a graph -/

/-- The containers from a position on begin with the given ones. -/
def HoldsAt (graph : ContainerGraph) (id : ContainerId) (containers : List Container) : Prop :=
  ∃ before after, graph.containers = before ++ (containers ++ after) ∧ before.length = id

private theorem HoldsAt.left {id : ContainerId} {first second : List Container}
    (held : graph.HoldsAt id (first ++ second)) : graph.HoldsAt id first := by
  obtain ⟨before, after, same, length⟩ := held
  exact ⟨before, second ++ after, by rw [same, List.append_assoc], length⟩

private theorem HoldsAt.right {id : ContainerId} {first second : List Container}
    (held : graph.HoldsAt id (first ++ second)) : graph.HoldsAt (id + first.length) second := by
  obtain ⟨before, after, same, length⟩ := held
  refine ⟨before ++ first, after, ?_, ?_⟩
  · rw [same, List.append_assoc, List.append_assoc]
  · rw [List.length_append, length]

private theorem HoldsAt.tail {id : ContainerId} {own : Container} {others : List Container}
    (held : graph.HoldsAt id (own :: others)) : graph.HoldsAt (id + 1) others := by
  have split : graph.HoldsAt id ([own] ++ others) := held
  exact split.right

private theorem HoldsAt.container? {id : ContainerId} {own : Container} {others : List Container}
    (held : graph.HoldsAt id (own :: others)) : graph.container? id = some own := by
  obtain ⟨before, after, same, rfl⟩ := held
  unfold ContainerGraph.container?
  rw [same, List.getElem?_append_right (Nat.le_refl _), Nat.sub_self]
  rfl

section Layouts

variable {parent : Option ContainerId} {kind : ContainerKind} {id : ContainerId}
  {declaration : ContainerDecl}

theorem HoldsAt.ownContainer (held : graph.HoldsAt id (layout parent kind id declaration)) :
    graph.container? id = some (declaration.container parent kind id) := by
  rw [layout_eq] at held
  exact held.container?

theorem HoldsAt.ownNamespaces (held : graph.HoldsAt id (layout parent kind id declaration)) :
    graph.HoldsAt (id + 1) (layoutAll id .nameSpace (id + 1) declaration.namespaces) := by
  rw [layout_eq] at held
  exact held.tail.left

theorem HoldsAt.ownInterfaces (held : graph.HoldsAt id (layout parent kind id declaration)) :
    graph.HoldsAt (id + 1 + countAll declaration.namespaces)
      (layoutAll id .interface (id + 1 + countAll declaration.namespaces)
        declaration.interfaces) := by
  rw [layout_eq] at held
  have rest := held.tail.right
  rw [length_layoutAll] at rest
  exact rest

theorem HoldsAt.first {outer next : ContainerId} {others : List ContainerDecl}
    (held : graph.HoldsAt next (layoutAll outer kind next (declaration :: others))) :
    graph.HoldsAt next (layout (some outer) kind next declaration) := by
  rw [layoutAll] at held
  exact held.left

theorem HoldsAt.others {outer next : ContainerId} {others : List ContainerDecl}
    (held : graph.HoldsAt next (layoutAll outer kind next (declaration :: others))) :
    graph.HoldsAt (next + declaration.count)
      (layoutAll outer kind (next + declaration.count) others) := by
  rw [layoutAll] at held
  have rest := held.right
  rw [length_layout] at rest
  exact rest

private theorem isService_of_layout (held : graph.HoldsAt id (layout parent kind id declaration)) :
    graph.isService id = declaration.service := by
  unfold isService
  rw [held.ownContainer]
  rfl

private theorem parentOf?_of_layout (held : graph.HoldsAt id (layout parent kind id declaration)) :
    graph.parentOf? id = parent := by
  unfold parentOf?
  rw [held.ownContainer]
  rfl

end Layouts

/-! ### Roots -/

def RootFor (graph : ContainerGraph) (id : ContainerId) (placement : Placement) : Prop :=
  placement.path = [placement.declaration.name] ∧
    ∃ parent, graph.HoldsAt id (layout parent placement.kind id placement.declaration)

def isTopService (graph : ContainerGraph) (id : ContainerId) : Bool :=
  graph.isService id && !(graph.ancestors id).any graph.isService

mutual

/-- Among the positions of a declaration the topmost services are those of the declaration,
unless a service container is around it: then there are none. -/
private theorem topServices_of_layout (nested : graph.WellNested) (covered : Bool)
    (parent : Option ContainerId) (kind : ContainerKind) (id : ContainerId) :
    ∀ declaration : ContainerDecl, graph.HoldsAt id (layout parent kind id declaration) →
      (graph.ancestors id).any graph.isService = covered →
      List.Forall₂ graph.RootFor
        ((List.range' id declaration.count).filter graph.isTopService)
        (if covered then [] else declaration.serviceRoots kind)
  | ⟨name, service, client, operations, namespaces, interfaces⟩, held, around => by
      have own : graph.isService id = service := isService_of_layout held
      have inner : (graph.isService id || (graph.ancestors id).any graph.isService) =
          (service || covered) := by
        rw [own, around]
      have nameSpaceRoots := topServices_of_layoutAll nested (service || covered) id .nameSpace
        (id + 1) namespaces held.ownNamespaces inner
      have interfaceRoots := topServices_of_layoutAll nested (service || covered) id .interface
        (id + 1 + countAll namespaces) interfaces held.ownInterfaces inner
      have joined := List.rel_append nameSpaceRoots interfaceRoots
      have positions : List.range' id (count
            ⟨name, service, client, operations, namespaces, interfaces⟩) =
          id :: (List.range' (id + 1) (countAll namespaces) ++
            List.range' (id + 1 + countAll namespaces) (countAll interfaces)) := by
        rw [count, Nat.add_assoc, Nat.add_comm 1, List.range'_succ, List.range'_append_1]
      have chosen : graph.isTopService id = (service && !covered) := by
        unfold isTopService
        rw [own, around]
      rw [positions, List.filter_cons, chosen, List.filter_append, serviceRoots]
      -- below a service nothing is on top: a marked declaration covers what is inside it
      cases covered with
      | true =>
          rw [Bool.or_true] at joined
          simpa using joined
      | false =>
          cases service with
          | true =>
              have root : graph.RootFor id
                  (.top kind ⟨name, true, client, operations, namespaces, interfaces⟩) :=
                ⟨rfl, parent, held⟩
              simpa using List.Forall₂.cons root joined
          | false => simpa using joined

private theorem topServices_of_layoutAll (nested : graph.WellNested) (covered : Bool)
    (outer : ContainerId) (kind : ContainerKind) (next : ContainerId) :
    ∀ declarations : List ContainerDecl,
      graph.HoldsAt next (layoutAll outer kind next declarations) →
      (graph.isService outer || (graph.ancestors outer).any graph.isService) = covered →
      List.Forall₂ graph.RootFor
        ((List.range' next (countAll declarations)).filter graph.isTopService)
        (if covered then [] else serviceRootsAmong kind declarations)
  | [], _, _ => by simp [countAll, serviceRootsAmong]
  | declaration :: others, held, around => by
      have link : graph.parentOf? next = some outer := parentOf?_of_layout held.first
      have covers : (graph.ancestors next).any graph.isService = covered := by
        rw [nested.ancestors_of_parent link, List.any_cons, around]
      have firstRoots := topServices_of_layout nested covered (some outer) kind next declaration
        held.first covers
      have otherRoots := topServices_of_layoutAll nested covered outer kind
        (next + declaration.count) others held.others around
      have joined := List.rel_append firstRoots otherRoots
      rw [countAll, ← List.range'_append_1, List.filter_append, serviceRootsAmong]
      cases covered with
      | true => simpa using joined
      | false => simpa using joined

end

private theorem clientRoots_of_layout (nested : graph.WellNested) {description : ContainerDecl}
    (same : graph = ⟨layout none .nameSpace root description⟩) :
    List.Forall₂ graph.RootFor graph.clientRoots description.roots := by
  have held : graph.HoldsAt root (layout none .nameSpace root description) :=
    ⟨[], [], by rw [same, List.append_nil]; rfl, rfl⟩
  have size : graph.size = description.count := by
    rw [same]
    exact length_layout none .nameSpace root description
  have alone : (graph.ancestors root).any graph.isService = false := by
    rw [ancestors_of_parentless nested.parentOf?_root]
    rfl
  have services : List.Forall₂ graph.RootFor graph.topServices
      (description.serviceRoots .nameSpace) := by
    have found := topServices_of_layout nested false none .nameSpace root description held alone
    have listed : graph.topServices =
        (List.range' root description.count).filter graph.isTopService := by
      unfold topServices
      rw [size, List.range_eq_range']
      rfl
    rw [listed]
    exact found
  unfold clientRoots ContainerDecl.roots
  generalize graph.topServices = marked at services ⊢
  generalize description.serviceRoots .nameSpace = declared at services ⊢
  cases services with
  | nil => exact .cons ⟨rfl, none, held⟩ .nil
  | cons first others => exact .cons first others

/-! ### Standing -/

structure StandsAt (graph : ContainerGraph) (id : ContainerId) (placement : Placement) : Prop where
  laidOut : ∃ parent, graph.HoldsAt id (layout parent placement.kind id placement.declaration)
  named : graph.NamedFrom id placement.path

theorem StandsAt.exists_container {id : ContainerId} {placement : Placement}
    (stands : graph.StandsAt id placement) : ∃ parent,
    graph.container? id = some (placement.declaration.container parent placement.kind id) := by
  obtain ⟨parent, held⟩ := stands.laidOut
  exact ⟨parent, held.ownContainer⟩

theorem roots_stand (nested : graph.WellNested) {description : ContainerDecl}
    (same : graph = ⟨layout none .nameSpace root description⟩) :
    List.Forall₂ graph.StandsAt graph.clientRoots description.roots := by
  have related := clientRoots_of_layout nested same
  rw [List.forall₂_iff_zip] at related ⊢
  refine ⟨related.1, fun pair => ?_⟩
  obtain ⟨path, parent, held⟩ := related.2 pair
  refine ⟨⟨parent, held⟩, ?_⟩
  rw [path]
  exact .top (List.of_mem_zip pair).1 held.ownContainer

private theorem listed_stand {outer : ContainerId} {path : List String}
    (named : graph.NamedFrom outer path)
    (kind : ContainerKind) {next : ContainerId} {declarations : List ContainerDecl}
    (held : graph.HoldsAt next (layoutAll outer kind next declarations))
    (nests : ∀ child ∈ positions next declarations, graph.Nests outer child) :
    List.Forall₂ graph.StandsAt (positions next declarations)
      (declarations.map (Placement.inside path kind)) := by
  induction declarations generalizing next with
  | nil => exact .nil
  | cons declaration others ih =>
      rw [positions] at nests ⊢
      obtain ⟨nestsFirst, nestsOthers⟩ := List.forall_mem_cons.mp nests
      have stands : graph.StandsAt next (.inside path kind declaration) :=
        ⟨⟨some outer, held.first⟩, .inside named nestsFirst held.first.ownContainer⟩
      exact .cons stands (ih held.others nestsOthers)

private theorem StandsAt.members {id : ContainerId} {placement : Placement}
    (stands : graph.StandsAt id placement) :
    List.Forall₂ graph.StandsAt (graph.nestedIn id) placement.members := by
  obtain ⟨parent, held⟩ := stands.laidOut
  have found := held.ownContainer
  have children : graph.nestedIn id = positions (id + 1) placement.declaration.namespaces ++
      positions (id + 1 + countAll placement.declaration.namespaces)
        placement.declaration.interfaces := by
    unfold nestedIn
    rw [found]
    rfl
  have nests : ∀ child ∈ graph.nestedIn id, graph.Nests id child :=
    fun child member => mem_nestedIn_iff.mp member
  rw [children] at nests ⊢
  obtain ⟨nestsNamespaces, nestsInterfaces⟩ := List.forall_mem_append.mp nests
  exact List.rel_append (listed_stand stands.named .nameSpace held.ownNamespaces nestsNamespaces)
    (listed_stand stands.named .interface held.ownInterfaces nestsInterfaces)

private theorem StandsAt.qualifies {id : ContainerId} {placement : Placement}
    (stands : graph.StandsAt id placement) (rule : PromotionRule) :
    ((graph.container? id).map rule.qualifies).getD false = placement.promotedBy rule := by
  obtain ⟨parent, found⟩ := stands.exists_container
  rw [found, Option.map_some, Option.getD_some]
  cases rule with
  | allNested => rfl
  | nonEmpty =>
      simp only [PromotionRule.qualifies, Container.isEmpty, container, isEmpty_positions,
        Bool.not_and, Placement.promotedBy, ContainerDecl.promotedBy]

theorem StandsAt.promoted {id : ContainerId} {placement : Placement}
    (stands : graph.StandsAt id placement) (rule : PromotionRule) :
    List.Forall₂ graph.StandsAt (graph.promoted rule id) (placement.promotedMembers rule) := by
  rw [promoted_eq_filter]
  refine List.rel_filter ?_ stands.members
  intro child member childStands
  exact Bool.eq_iff_iff.mp (childStands.qualifies rule)

end SdkClients.ContainerGraph
