import SdkClients.Proofs.ContainerGraph.Ancestry
import Mathlib.Data.List.Nodup

set_option autoImplicit false

/-!
Graphs under calls that may be refused on the way.

A call changes its graph stage by stage, and what it has done stays done when a later stage is
refused. Adding a container links it into its parent before it is there, so between the two
stages a list of nested containers leads nowhere. Only the first stage of a call looks a
container up, hence a refused call leaves no trace, and every run of calls leaves a graph in
which the links up and down say the same.
-/

namespace SdkClients.ContainerGraph

/-! ### Calls in stages -/

/-- One stage of a call. -/
inductive Stage where
  /-- Looks a container up and changes it. -/
  | edit (id : ContainerId) (change : Container → Container)
  /-- Puts a container behind the others. -/
  | put (container : Container)

def Stage.act (graph : ContainerGraph) : Stage → Except UnknownContainer ContainerGraph
  | .edit id change =>
      if id < graph.size then .ok (graph.update id change) else .error ⟨id, graph.size⟩
  | .put container => .ok ⟨graph.containers ++ [container]⟩

/-- The stages of a call. A new container is linked into its parent before it is put. -/
def stages (graph : ContainerGraph) : Step → List Stage
  | .addNamespace parent name =>
      [.edit parent fun container => container.withChild .nameSpace graph.size,
        .put (.bare name .nameSpace (some parent))]
  | .addInterface parent name =>
      [.edit parent fun container => container.withChild .interface graph.size,
        .put (.bare name .interface (some parent))]
  | .addOperation container name => [.edit container fun found => found.withOperation name]
  | .markService container => [.edit container Container.markedService]
  | .markClient container => [.edit container Container.markedClient]

/-- Goes through stages up to the first refusal. The graph is what they have made of it by then. -/
def goThrough (graph : ContainerGraph) : List Stage → ContainerGraph × Option UnknownContainer
  | [] => (graph, none)
  | stage :: later =>
      match stage.act graph with
      | .ok changed => changed.goThrough later
      | .error refusal => (graph, some refusal)

/-- Makes a call: the graph after it, and the refusal if there was one. -/
def call (graph : ContainerGraph) (step : Step) : ContainerGraph × Option UnknownContainer :=
  graph.goThrough (graph.stages step)

/-- Makes calls one after the other, going on with the same graph after a refusal. -/
def calls (graph : ContainerGraph) (steps : List Step) : ContainerGraph :=
  steps.foldl (fun reached step => (reached.call step).1) graph

variable {graph : ContainerGraph}

private theorem goThrough_edit_of_lt {id : ContainerId} (present : id < graph.size)
    (change : Container → Container) (later : List Stage) :
    graph.goThrough (.edit id change :: later) = (graph.update id change).goThrough later := by
  rw [goThrough, Stage.act, if_pos present]

private theorem goThrough_edit_of_le {id : ContainerId} (absent : graph.size ≤ id)
    (change : Container → Container) (later : List Stage) :
    graph.goThrough (.edit id change :: later) = (graph, some ⟨id, graph.size⟩) := by
  rw [goThrough, Stage.act, if_neg (Nat.not_lt.mpr absent)]

theorem call_of_lt {step : Step} (present : step.target < graph.size) :
    graph.call step = (graph.perform step, none) := by
  cases step <;> exact goThrough_edit_of_lt present _ _

theorem call_of_le {step : Step} (absent : graph.size ≤ step.target) :
    graph.call step = (graph, some ⟨step.target, graph.size⟩) := by
  cases step <;> exact goThrough_edit_of_le absent _ _

private theorem call_fst (step : Step) : (graph.call step).1 = graph.advance step := by
  rcases Nat.lt_or_ge step.target graph.size with present | absent
  · rw [call_of_lt present, advance_of_lt present]
  · rw [call_of_le absent, advance_of_le absent]

private theorem calls_eq_run (graph : ContainerGraph) (steps : List Step) :
    graph.calls steps = graph.run steps := by
  simp only [calls, run, call_fst]

/-! ### What holds after every run -/

/-- The lists of nested containers of all containers together. -/
def allNested (graph : ContainerGraph) : List ContainerId :=
  graph.containers.flatMap Container.children

/-- Links up and links down that say the same. -/
structure Consistent (graph : ContainerGraph) : Prop where
  /-- The first container is a namespace without a parent. -/
  first : ∃ container, graph.container? 0 = some container ∧
    container.kind = .nameSpace ∧ container.parent = none
  /-- Every other container has an earlier one as its parent, which lists it among those of its
  kind; that is the only place where it is listed. -/
  others : ∀ id container, graph.container? id = some container → id ≠ 0 →
    ∃ outer parent, container.parent = some outer ∧ outer < id ∧
      graph.container? outer = some parent ∧
      (match container.kind with
        | .nameSpace => id ∈ parent.namespaces
        | .interface => id ∈ parent.interfaces) ∧
      graph.allNested.count id = 1
  /-- Lists lead to later containers of the graph. -/
  inward : ∀ id container, graph.container? id = some container →
    ∀ child ∈ container.namespaces ++ container.interfaces, id < child ∧ child < graph.size
  /-- Every list is in rising order. -/
  rising : ∀ id container, graph.container? id = some container →
    container.namespaces.Pairwise (· < ·) ∧ container.interfaces.Pairwise (· < ·)

private theorem mem_allNested_iff {child : ContainerId} :
    child ∈ graph.allNested ↔ ∃ outer, graph.Nests outer child := by
  rw [allNested, List.mem_flatMap]
  constructor
  · rintro ⟨container, member, listed⟩
    obtain ⟨outer, found⟩ := List.mem_iff_getElem?.mp member
    exact ⟨outer, container, found, listed⟩
  · rintro ⟨outer, container, found, listed⟩
    exact ⟨container, List.mem_of_getElem? found, listed⟩

/-- No container is listed twice: not in one list, and not by two containers. -/
private theorem WellNested.allNested_nodup (nested : graph.WellNested) : graph.allNested.Nodup := by
  refine List.nodup_flatMap.mpr ⟨?_, ?_⟩
  · intro container member
    obtain ⟨id, found⟩ := List.mem_iff_getElem?.mp member
    exact nested.children_nodup found
  · refine List.pairwise_iff_getElem.mpr fun first second firstIn secondIn before => ?_
    intro child left right
    have leftNests : graph.Nests first child := ⟨_, List.getElem?_eq_getElem firstIn, left⟩
    have rightNests : graph.Nests second child := ⟨_, List.getElem?_eq_getElem secondIn, right⟩
    exact Nat.ne_of_lt before (nested.nests_unique leftNests rightNests)

private theorem WellNested.consistent (nested : graph.WellNested) : graph.Consistent where
  first := nested.top
  others := by
    intro id container found inner
    obtain ⟨outer, link, before⟩ := nested.upward id container found inner
    obtain ⟨parent, parentFound⟩ : ∃ parent, graph.container? outer = some parent :=
      exists_container_of_lt (Nat.lt_trans before (lt_size_of_container? found))
    have listed : id ∈ parent.listed container.kind :=
      (nested.downward outer parent parentFound container.kind id).mpr ⟨container, found, link, rfl⟩
    have member : id ∈ graph.allNested :=
      mem_allNested_iff.mpr ⟨outer, parent, parentFound, Container.mem_children.mpr ⟨_, listed⟩⟩
    refine ⟨outer, parent, link, before, parentFound, ?_,
      List.count_eq_one_of_mem nested.allNested_nodup member⟩
    cases kind : container.kind <;> rw [kind] at listed <;> exact listed
  inward := by
    intro id container found child listed
    have nests : graph.Nests id child := ⟨container, found, listed⟩
    exact ⟨nested.nests_lt nests, nested.inner_lt_size nests⟩
  rising := fun id container found =>
    ⟨nested.rising id container found .nameSpace, nested.rising id container found .interface⟩

/-- Whatever is called on a new graph, with whatever positions, its links are consistent
afterwards. A call that names a container out of range is refused and leaves the graph exactly as
it was; every other call is carried out. -/
theorem calls_consistent (name : String) (steps : List Step) :
    ((ofRoot name).calls steps).Consistent ∧
      (ofRoot name).calls steps = (ofRoot name).run steps ∧
      ∀ step, ((ofRoot name).calls steps).call step =
        if step.target < ((ofRoot name).calls steps).size
        then (((ofRoot name).calls steps).perform step, none)
        else ((ofRoot name).calls steps, some ⟨step.target, ((ofRoot name).calls steps).size⟩) := by
  have reachable : ((ofRoot name).calls steps).Reachable := ⟨name, steps, calls_eq_run _ steps⟩
  refine ⟨reachable.wellNested.consistent, calls_eq_run _ steps, fun step => ?_⟩
  split
  · exact call_of_lt ‹_›
  · exact call_of_le (Nat.le_of_not_lt ‹_›)

end SdkClients.ContainerGraph
