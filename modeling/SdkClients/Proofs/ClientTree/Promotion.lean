import SdkClients.Proofs.ClientTree.Index
import SdkClients.Proofs.ContainerGraph.Ancestry
import SdkClients.Proofs.Sweep

set_option autoImplicit false

/-!
Which containers become clients, and in which order.

The containers of a built tree are a sweep over the promoted containers from those of the
root clients. Nesting is a forest, so the sweep takes every container at most once, and a
container that a rule rejects holds nothing, so it hides nothing.
-/

namespace SdkClients

namespace ContainerGraph

def Qualifies (graph : ContainerGraph) (rule : PromotionRule) (id : ContainerId) : Prop :=
  ∃ container, graph.container? id = some container ∧ rule.qualifies container = true

variable {graph : ContainerGraph}

theorem lt_size_of_qualifies {rule : PromotionRule} {id : ContainerId}
    (qualifies : graph.Qualifies rule id) : id < graph.size := by
  obtain ⟨container, found, -⟩ := qualifies
  exact lt_size_of_container? found

theorem qualifies_iff {rule : PromotionRule} {id : ContainerId} :
    graph.Qualifies rule id ↔ ((graph.container? id).map rule.qualifies).getD false = true := by
  unfold Qualifies
  cases graph.container? id <;> simp

theorem mem_promoted_iff {rule : PromotionRule} {outer inner : ContainerId} :
    inner ∈ graph.promoted rule outer ↔ graph.Nests outer inner ∧ graph.Qualifies rule inner := by
  rw [qualifies_iff]
  unfold promoted Nests
  cases graph.container? outer with
  | none => simp
  | some container => simp

theorem promoted_eq_filter (rule : PromotionRule) (id : ContainerId) :
    graph.promoted rule id = (graph.nestedIn id).filter fun child =>
      ((graph.container? child).map rule.qualifies).getD false := by
  unfold promoted nestedIn
  cases graph.container? id <;> rfl

/-- A container that holds another one is promoted by every rule. -/
theorem qualifies_of_nests (rule : PromotionRule) {outer inner : ContainerId}
    (nests : graph.Nests outer inner) : graph.Qualifies rule outer := by
  obtain ⟨container, found, member⟩ := nests
  refine ⟨container, found, ?_⟩
  cases rule with
  | allNested => rfl
  | nonEmpty =>
      have filled : container.isEmpty = false := by
        cases empty : container.isEmpty with
        | false => rfl
        | true =>
            simp only [Container.isEmpty, Bool.and_eq_true, List.isEmpty_iff] at empty
            simp [Container.children, empty] at member
      simp [PromotionRule.qualifies, filled]

theorem rejected_iff {rule : PromotionRule} {container : Container} :
    rule.qualifies container = false ↔ rule = .nonEmpty ∧ container.isEmpty = true ∧
      container.service = false ∧ container.client = false := by
  cases rule <;> simp [PromotionRule.qualifies, and_assoc]

theorem WellNested.promoted_nodup (nested : graph.WellNested) (rule : PromotionRule)
    (id : ContainerId) : (graph.promoted rule id).Nodup := by
  unfold promoted
  cases found : graph.container? id with
  | none => exact List.nodup_nil
  | some container => exact (nested.children_nodup found).filter _

/-! ### Sweeps over a graph -/

/-- Sweeps that go from containers to containers nested in them spread out like a forest. -/
private theorem WellNested.forest (nested : graph.WellNested)
    {below : ContainerId → List ContainerId}
    {starts : List ContainerId} (nests : ∀ outer, ∀ inner ∈ below outer, graph.Nests outer inner)
    (distinct : ∀ outer, (below outer).Nodup) (startsDistinct : starts.Nodup)
    (apart : ∀ first ∈ starts, ∀ second ∈ starts, ¬ graph.Below first second) :
    Forest below starts where
  distinct := distinct
  single := fun first second lower left right =>
    nested.nests_unique (nests first lower left) (nests second lower right)
  starts := startsDistinct
  apart := by
    rintro upper ⟨start, member, path⟩ other present listed
    have climbed : Relation.ReflTransGen graph.Nests start upper :=
      Relation.ReflTransGen.mono nests _ _ path
    exact apart start member other present (.tail' climbed (nests upper other listed))

theorem WellNested.forest_singleton (nested : graph.WellNested)
    {below : ContainerId → List ContainerId}
    (nests : ∀ outer, ∀ inner ∈ below outer, graph.Nests outer inner)
    (distinct : ∀ outer, (below outer).Nodup) (start : ContainerId) : Forest below [start] := by
  refine nested.forest nests distinct (List.nodup_singleton start) ?_
  intro first left second right inside
  rw [List.mem_singleton.mp left, List.mem_singleton.mp right] at inside
  exact Nat.lt_irrefl start (nested.below_lt inside)

theorem WellNested.settled (nested : graph.WellNested) {below : ContainerId → List ContainerId}
    {starts : List ContainerId} (forest : Forest below starts)
    (nests : ∀ outer, ∀ inner ∈ below outer, graph.Nests outer inner)
    (present : ∀ start ∈ starts, start < graph.size) : Settled below graph.size starts := by
  have within : ∀ entry, Reaches below starts entry → entry ∈ List.range graph.size := by
    rintro entry ⟨start, member, path⟩
    refine List.mem_range.mpr ?_
    cases path with
    | refl => exact present _ member
    | tail _ last => exact nested.inner_lt_size (nests _ _ last)
  have settled := forest.settled (List.range graph.size) within
  rw [List.length_range] at settled
  exact settled

theorem nests_of_mem_promoted {rule : PromotionRule} (outer : ContainerId) :
    ∀ inner ∈ graph.promoted rule outer, graph.Nests outer inner :=
  fun _ member => (mem_promoted_iff.mp member).1

def clientContainers (graph : ContainerGraph) (rule : PromotionRule) : List ContainerId :=
  sweep (graph.promoted rule) graph.size graph.clientRoots

theorem WellNested.clientForest (nested : graph.WellNested) (rule : PromotionRule) :
    Forest (graph.promoted rule) graph.clientRoots :=
  nested.forest nests_of_mem_promoted (nested.promoted_nodup rule)
    (clientRoots_pairwise.imp Nat.ne_of_lt)
    fun _ left _ right => nested.clientRoots_apart left right

theorem WellNested.clients_settled (nested : graph.WellNested) (rule : PromotionRule) :
    Settled (graph.promoted rule) graph.size graph.clientRoots :=
  nested.settled (nested.clientForest rule) nests_of_mem_promoted
    fun _ member => nested.lt_size_of_mem_clientRoots member

/-- Only roots and promoted containers below a root are reached, and no container on the way
needs to be looked at: what holds something is promoted. -/
theorem WellNested.mem_clientContainers_iff (nested : graph.WellNested) {rule : PromotionRule}
    {id : ContainerId} :
    id ∈ graph.clientContainers rule ↔ graph.IsClientRoot id ∨
      (∃ top, graph.IsClientRoot top ∧ graph.Below top id) ∧ graph.Qualifies rule id := by
  rw [clientContainers, (nested.clients_settled rule).mem_iff]
  constructor
  · rintro ⟨start, member, path⟩
    have top : graph.IsClientRoot start := nested.mem_clientRoots_iff.mp member
    cases path with
    | refl => exact .inl top
    | tail path last =>
        obtain ⟨nests, qualifies⟩ := mem_promoted_iff.mp last
        have climbed : Relation.ReflTransGen graph.Nests start _ :=
          Relation.ReflTransGen.mono nests_of_mem_promoted _ _ path
        exact .inr ⟨⟨start, top, .tail' climbed nests⟩, qualifies⟩
  · rintro (top | ⟨⟨top, isRoot, below⟩, qualifies⟩)
    · exact .of_mem (nested.mem_clientRoots_iff.mpr top)
    · have start : Reaches (graph.promoted rule) graph.clientRoots top :=
        .of_mem (nested.mem_clientRoots_iff.mpr isRoot)
      induction below with
      | single nests => exact start.step (mem_promoted_iff.mpr ⟨nests, qualifies⟩)
      | tail _ nests ih =>
          exact (ih (qualifies_of_nests rule nests)).step (mem_promoted_iff.mpr ⟨nests, qualifies⟩)

end ContainerGraph

end SdkClients
