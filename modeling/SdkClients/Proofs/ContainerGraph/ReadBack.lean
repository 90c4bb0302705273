import SdkClients.Proofs.ContainerGraph.Ancestry
import SdkClients.Proofs.Pointwise

set_option autoImplicit false

/-!
Containers without positions.

A container is read back with everything inside it, in the order of its lists. Positions do not
show in what is read, so two graphs that were filled in different orders can read back to the
same. Links down lead to later positions, which bounds the depth of what is read.
-/

namespace SdkClients

/-- A container and everything inside it. -/
structure Subtree where
  name : String
  kind : ContainerKind
  operations : List String
  service : Bool
  client : Bool
  namespaces : List Subtree
  interfaces : List Subtree

namespace ContainerGraph

variable {graph : ContainerGraph}

/-- What stands at a position, with at most the given number of levels. -/
def readBackWithin (graph : ContainerGraph) : Nat → ContainerId → Option Subtree
  | 0, _ => none
  | levels + 1, id => do
      let container ← graph.container? id
      let namespaces ← container.namespaces.mapM (graph.readBackWithin levels)
      let interfaces ← container.interfaces.mapM (graph.readBackWithin levels)
      return ⟨container.name, container.kind, container.operations, container.service,
        container.client, namespaces, interfaces⟩

/-- What stands at a position. -/
def readBack (graph : ContainerGraph) (id : ContainerId) : Option Subtree :=
  graph.readBackWithin graph.size id

private theorem WellNested.lt_of_listed (nested : graph.WellNested) {id child : ContainerId}
    {container : Container} (found : graph.container? id = some container) {kind : ContainerKind}
    (listed : child ∈ container.listed kind) : id < child :=
  nested.nests_lt ⟨container, found, Container.mem_children.mpr ⟨kind, listed⟩⟩

/-- A position and the levels below it together reach the end of the graph, or there is room
to spare. -/
private theorem WellNested.readBackWithin_of_le (nested : graph.WellNested) {few many : Nat}
    {id : ContainerId} (enough : graph.size ≤ id + few) (more : few ≤ many) :
    graph.readBackWithin many id = graph.readBackWithin few id := by
  induction few generalizing many id with
  | zero =>
      cases many with
      | zero => rfl
      | succ many =>
          have absent : graph.container? id = none := container?_eq_none_iff.mpr enough
          simp only [readBackWithin, absent, Option.bind_eq_bind, Option.bind_none]
  | succ few ih =>
      obtain ⟨many, rfl⟩ : ∃ fewer, many = fewer + 1 := ⟨many - 1, by omega⟩
      rw [readBackWithin, readBackWithin]
      cases found : graph.container? id with
      | none => rfl
      | some container =>
          have deeper : ∀ kind, ∀ child ∈ container.listed kind,
              graph.readBackWithin many child = graph.readBackWithin few child := by
            intro kind child listed
            have later := Nat.succ_le_of_lt (nested.lt_of_listed found listed)
            exact ih (by omega) (Nat.le_of_succ_le_succ more)
          have namespaces : container.namespaces.mapM (graph.readBackWithin many) =
              container.namespaces.mapM (graph.readBackWithin few) :=
            mapM_congr_of_mem (deeper .nameSpace)
          have interfaces : container.interfaces.mapM (graph.readBackWithin many) =
              container.interfaces.mapM (graph.readBackWithin few) :=
            mapM_congr_of_mem (deeper .interface)
          simp only [Option.bind_eq_bind, Option.bind_some, namespaces, interfaces]

private theorem readBackWithin_eq_some_iff {levels : Nat} {id : ContainerId} {subtree : Subtree} :
    graph.readBackWithin (levels + 1) id = some subtree ↔
      ∃ container namespaces interfaces, graph.container? id = some container ∧
        List.Forall₂ (fun child inner => graph.readBackWithin levels child = some inner)
          container.namespaces namespaces ∧
        List.Forall₂ (fun child inner => graph.readBackWithin levels child = some inner)
          container.interfaces interfaces ∧
        subtree = ⟨container.name, container.kind, container.operations, container.service,
          container.client, namespaces, interfaces⟩ := by
  rw [readBackWithin]
  simp only [Option.bind_eq_bind, Option.bind_eq_some_iff, Option.pure_def, Option.some.injEq,
    mapM_eq_some_iff]
  constructor
  · rintro ⟨container, found, namespaces, left, interfaces, right, rfl⟩
    exact ⟨container, namespaces, interfaces, found, left, right, rfl⟩
  · rintro ⟨container, namespaces, interfaces, found, left, right, rfl⟩
    exact ⟨container, found, namespaces, left, interfaces, right, rfl⟩

theorem WellNested.readBack_eq_some_iff (nested : graph.WellNested) {id : ContainerId}
    {subtree : Subtree} :
    graph.readBack id = some subtree ↔
      ∃ container namespaces interfaces, graph.container? id = some container ∧
        List.Forall₂ (fun child inner => graph.readBack child = some inner)
          container.namespaces namespaces ∧
        List.Forall₂ (fun child inner => graph.readBack child = some inner)
          container.interfaces interfaces ∧
        subtree = ⟨container.name, container.kind, container.operations, container.service,
          container.client, namespaces, interfaces⟩ := by
  have step : graph.readBack id = graph.readBackWithin (graph.size + 1) id :=
    (nested.readBackWithin_of_le (Nat.le_add_left _ _) (Nat.le_succ _)).symm
  rw [step]
  exact readBackWithin_eq_some_iff

theorem WellNested.exists_subtree (nested : graph.WellNested) {id : ContainerId}
    (present : id < graph.size) : ∃ subtree, graph.readBack id = some subtree := by
  -- what is listed stands later, so the positions after this one are read first
  obtain ⟨rest, same⟩ : ∃ rest, graph.size - id = rest := ⟨_, rfl⟩
  induction rest using Nat.strongRecOn generalizing id with
  | ind rest ih =>
      obtain ⟨container, found⟩ := exists_container_of_lt present
      have inner : ∀ kind, ∃ subtrees, List.Forall₂
          (fun child inner => graph.readBack child = some inner)
          (container.listed kind) subtrees := by
        intro kind
        have each : ∀ child ∈ container.listed kind,
            ∃ subtree, graph.readBack child = some subtree := by
          intro child listed
          have later : id < child := nested.lt_of_listed found listed
          have inside : child < graph.size := nested.inner_lt_size
            ⟨container, found, Container.mem_children.mpr ⟨kind, listed⟩⟩
          exact ih _ (same ▸ Nat.sub_lt_sub_left present later) inside rfl
        exact exists_forall₂_of_each each
      obtain ⟨namespaces, left⟩ := inner .nameSpace
      obtain ⟨interfaces, right⟩ := inner .interface
      exact ⟨_, nested.readBack_eq_some_iff.mpr
        ⟨container, namespaces, interfaces, found, left, right, rfl⟩⟩

end ContainerGraph

end SdkClients
