import SdkClients.ContainerGraph
import Mathlib.Data.List.Induction

set_option autoImplicit false

/-!
The nesting of a graph that calls have built.

A run starts with a root and carries out changes; a change that is refused leaves the graph
as it was. Along every run links up and links down say the same, links up lead to earlier
positions, and every list of nested containers is in rising order.
-/

namespace SdkClients

/-- The nested containers of one kind. -/
def Container.listed (container : Container) : ContainerKind → List ContainerId
  | .nameSpace => container.namespaces
  | .interface => container.interfaces

theorem Container.mem_children {container : Container} {child : ContainerId} :
    child ∈ container.children ↔ ∃ kind, child ∈ container.listed kind := by
  constructor
  · intro member
    rcases List.mem_append.mp member with nameSpace | interface
    · exact ⟨.nameSpace, nameSpace⟩
    · exact ⟨.interface, interface⟩
  · rintro ⟨kind, member⟩
    cases kind with
    | nameSpace => exact List.mem_append_left _ member
    | interface => exact List.mem_append_right _ member

private theorem Container.listed_withChild (container : Container) (kind other : ContainerKind)
    (child : ContainerId) :
    (container.withChild kind child).listed other =
      container.listed other ++ (if other = kind then [child] else []) := by
  cases kind <;> cases other <;> simp [withChild, listed]

@[simp] theorem Container.parent_withChild (container : Container) (kind : ContainerKind)
    (child : ContainerId) : (container.withChild kind child).parent = container.parent := by
  cases kind <;> rfl

@[simp] theorem Container.kind_withChild (container : Container) (kind : ContainerKind)
    (child : ContainerId) : (container.withChild kind child).kind = container.kind := by
  cases kind <;> rfl

namespace ContainerGraph

/-! ### Runs -/

/-- Carries out a change; a refused one leaves the graph as it is. -/
def advance (graph : ContainerGraph) (step : Step) : ContainerGraph :=
  match graph.apply step with
  | .ok changed => changed
  | .error _ => graph

def run (graph : ContainerGraph) (steps : List Step) : ContainerGraph :=
  steps.foldl advance graph

private theorem run_concat (graph : ContainerGraph) (steps : List Step) (last : Step) :
    graph.run (steps ++ [last]) = (graph.run steps).advance last := by
  simp only [run, List.foldl_append, List.foldl_cons, List.foldl_nil]

/-- The graphs that calls lead to. -/
def Reachable (graph : ContainerGraph) : Prop :=
  ∃ name steps, graph = (ofRoot name).run steps

theorem reachable_ofRoot (name : String) : (ofRoot name).Reachable := ⟨name, [], rfl⟩

theorem advance_of_lt {graph : ContainerGraph} {step : Step} (present : step.target < graph.size) :
    graph.advance step = graph.perform step := by
  simp only [advance, apply, if_pos present]

theorem advance_of_le {graph : ContainerGraph} {step : Step} (absent : graph.size ≤ step.target) :
    graph.advance step = graph := by
  simp only [advance, apply, if_neg (Nat.not_lt.mpr absent)]

theorem Reachable.perform {graph : ContainerGraph} (reachable : graph.Reachable) (step : Step)
    (present : step.target < graph.size) : (graph.perform step).Reachable := by
  obtain ⟨name, steps, rfl⟩ := reachable
  refine ⟨name, steps ++ [step], ?_⟩
  rw [run_concat, advance_of_lt present]

/-- What holds of a lone root and survives every change holds of all reachable graphs. -/
private theorem Reachable.induction {motive : ContainerGraph → Prop}
    (root : ∀ name, motive (.ofRoot name))
    (step : ∀ graph step, motive graph → step.target < graph.size → motive (graph.perform step))
    {graph : ContainerGraph} (reachable : graph.Reachable) : motive graph := by
  obtain ⟨name, steps, rfl⟩ := reachable
  -- from the end of the run: the last change was carried out or refused
  induction steps using List.reverseRecOn with
  | nil => exact root name
  | append_singleton steps last ih =>
      rw [run_concat]
      by_cases present : last.target < ((ofRoot name).run steps).size
      · rw [advance_of_lt present]
        exact step _ last ih present
      · rw [advance_of_le (Nat.le_of_not_lt present)]
        exact ih

/-! ### Look-ups after a change -/

theorem container?_eq_none_iff {graph : ContainerGraph} {id : ContainerId} :
    graph.container? id = none ↔ graph.size ≤ id :=
  List.getElem?_eq_none_iff

theorem lt_size_of_container? {graph : ContainerGraph} {id : ContainerId} {container : Container}
    (found : graph.container? id = some container) : id < graph.size :=
  (List.getElem?_eq_some_iff.mp found).1

theorem exists_container_of_lt {graph : ContainerGraph} {id : ContainerId}
    (present : id < graph.size) : ∃ container, graph.container? id = some container :=
  ⟨graph.containers[id], List.getElem?_eq_getElem present⟩

@[simp] theorem size_update (graph : ContainerGraph) (id : ContainerId)
    (change : Container → Container) : (graph.update id change).size = graph.size := by
  simp [update, size]

@[simp] theorem size_addChild (graph : ContainerGraph) (kind : ContainerKind)
    (parent : ContainerId) (name : String) :
    (graph.addChild kind parent name).size = graph.size + 1 := by
  simp [addChild, update, size]

theorem container?_update (graph : ContainerGraph) (id other : ContainerId)
    (change : Container → Container) :
    (graph.update id change).container? other =
      if id = other then (graph.container? other).map change else graph.container? other := by
  simp only [container?, update, List.getElem?_modify]
  split <;> simp

theorem container?_addChild (graph : ContainerGraph) (kind : ContainerKind)
    (parent : ContainerId) (name : String) (id : ContainerId) :
    (graph.addChild kind parent name).container? id =
      if id = graph.size then some (.bare name kind (some parent))
      else (graph.update parent fun container =>
        container.withChild kind graph.size).container? id := by
  have size := graph.size_update parent fun container => container.withChild kind graph.size
  unfold addChild container?
  generalize graph.update parent _ = linked at size ⊢
  change linked.containers.length = graph.size at size
  by_cases last : id = graph.size
  · rw [if_pos last, last, ← size]
    exact List.getElem?_concat_length
  · rw [if_neg last]
    rcases Nat.lt_or_gt_of_ne last with before | after
    · exact List.getElem?_append_left (by omega)
    · have beyond : (linked.containers ++ [Container.bare name kind (some parent)]).length ≤ id := by
        rw [List.length_append, List.length_singleton, size]
        exact after
      rw [List.getElem?_eq_none beyond]
      exact (List.getElem?_eq_none (by omega)).symm

/-! ### Nesting -/

/-- A container of the given kind whose link up leads to the given position. -/
def LiesIn (graph : ContainerGraph) (child outer : ContainerId) (kind : ContainerKind) : Prop :=
  ∃ nested, graph.container? child = some nested ∧ nested.parent = some outer ∧ nested.kind = kind

/-- The links of a graph: only the root, a namespace, has no link up, links up lead to earlier
positions, and a container lists exactly those whose link up leads to it, by kind and in
rising order. -/
structure WellNested (graph : ContainerGraph) : Prop where
  top : ∃ container, graph.container? root = some container ∧
    container.kind = .nameSpace ∧ container.parent = none
  upward : ∀ id container, graph.container? id = some container → id ≠ root →
    ∃ outer, container.parent = some outer ∧ outer < id
  downward : ∀ id container, graph.container? id = some container →
    ∀ kind child, child ∈ container.listed kind ↔ graph.LiesIn child id kind
  rising : ∀ id container, graph.container? id = some container →
    ∀ kind, (container.listed kind).Pairwise (· < ·)

private theorem wellNested_ofRoot (name : String) : (ofRoot name).WellNested := by
  have only : ∀ id container, (ofRoot name).container? id = some container →
      id = root ∧ container = .bare name .nameSpace none := by
    intro id container found
    cases id with
    | zero => exact ⟨rfl, (Option.some.inj found).symm⟩
    | succ id => cases found
  refine ⟨⟨_, rfl, rfl, rfl⟩, ?_, ?_, ?_⟩
  · intro id container found different
    exact absurd (only id container found).1 different
  · intro id container found kind child
    obtain ⟨-, rfl⟩ := only id container found
    constructor
    · intro member
      cases kind <;> cases member
    · rintro ⟨nested, located, link, -⟩
      rw [(only child nested located).2] at link
      cases link
  · intro id container found kind
    obtain ⟨-, rfl⟩ := only id container found
    cases kind <;> exact List.Pairwise.nil

private theorem WellNested.update {graph : ContainerGraph} (nested : graph.WellNested)
    (id : ContainerId)
    (change : Container → Container)
    (sameParent : ∀ container, (change container).parent = container.parent)
    (sameKind : ∀ container, (change container).kind = container.kind)
    (sameLists : ∀ container kind, (change container).listed kind = container.listed kind) :
    (graph.update id change).WellNested := by
  have origin : ∀ other after, (graph.update id change).container? other = some after →
      ∃ before, graph.container? other = some before ∧ after.parent = before.parent ∧
        after.kind = before.kind ∧ ∀ kind, after.listed kind = before.listed kind := by
    intro other after found
    rw [container?_update] at found
    split at found
    · obtain ⟨before, located, rfl⟩ := Option.map_eq_some_iff.mp found
      exact ⟨before, located, sameParent before, sameKind before, sameLists before⟩
    · exact ⟨after, found, rfl, rfl, fun _ => rfl⟩
  have image : ∀ other before, graph.container? other = some before →
      ∃ after, (graph.update id change).container? other = some after ∧
        after.parent = before.parent ∧ after.kind = before.kind := by
    intro other before found
    rw [container?_update, found]
    split
    · exact ⟨change before, rfl, sameParent before, sameKind before⟩
    · exact ⟨before, rfl, rfl, rfl⟩
  refine ⟨?_, ?_, ?_, ?_⟩
  · obtain ⟨before, located, kind, parent⟩ := nested.top
    obtain ⟨after, found, parentSame, kindSame⟩ := image _ before located
    exact ⟨after, found, kindSame.trans kind, parentSame.trans parent⟩
  · intro other after found different
    obtain ⟨before, located, parentSame, -, -⟩ := origin other after found
    rw [parentSame]
    exact nested.upward other before located different
  · intro other after found kind child
    obtain ⟨before, located, -, -, lists⟩ := origin other after found
    rw [lists, nested.downward other before located]
    constructor
    · rintro ⟨inner, innerAt, link, innerKind⟩
      obtain ⟨changed, changedAt, parentSame, kindSame⟩ := image child inner innerAt
      exact ⟨changed, changedAt, parentSame.trans link, kindSame.trans innerKind⟩
    · rintro ⟨inner, innerAt, link, innerKind⟩
      obtain ⟨original, originalAt, parentSame, kindSame, -⟩ := origin child inner innerAt
      exact ⟨original, originalAt, parentSame ▸ link, kindSame ▸ innerKind⟩
  · intro other after found kind
    obtain ⟨before, located, -, -, lists⟩ := origin other after found
    rw [lists]
    exact nested.rising other before located kind

private theorem liesIn_addChild (graph : ContainerGraph) (kind : ContainerKind)
    (parent : ContainerId) (name : String) (child outer : ContainerId) (other : ContainerKind) :
    (graph.addChild kind parent name).LiesIn child outer other ↔
      graph.LiesIn child outer other ∨ (child = graph.size ∧ outer = parent ∧ other = kind) := by
  unfold LiesIn
  rw [container?_addChild]
  by_cases last : child = graph.size
  · have absent : graph.container? child = none :=
      container?_eq_none_iff.mpr (Nat.le_of_eq last.symm)
    rw [if_pos last, absent]
    constructor
    · rintro ⟨inner, found, link, sameKind⟩
      cases found
      exact .inr ⟨last, (Option.some.inj link).symm, sameKind.symm⟩
    · rintro (⟨inner, found, -⟩ | ⟨-, rfl, rfl⟩)
      · cases found
      · exact ⟨_, rfl, rfl, rfl⟩
  · rw [if_neg last, container?_update]
    constructor
    · rintro ⟨inner, found, link, sameKind⟩
      left
      split at found
      · obtain ⟨before, located, rfl⟩ := Option.map_eq_some_iff.mp found
        exact ⟨before, located, by simpa using link, by simpa using sameKind⟩
      · exact ⟨inner, found, link, sameKind⟩
    · rintro (⟨inner, found, link, sameKind⟩ | ⟨same, -⟩)
      · rw [found]
        split
        · exact ⟨_, rfl, by simpa using link, by simpa using sameKind⟩
        · exact ⟨inner, rfl, link, sameKind⟩
      · exact absurd same last

private theorem WellNested.addChild {graph : ContainerGraph} (nested : graph.WellNested)
    (kind : ContainerKind) {parent : ContainerId} (present : parent < graph.size) (name : String) :
    (graph.addChild kind parent name).WellNested := by
  have below : ∀ id container, graph.container? id = some container →
      ∀ other child, child ∈ container.listed other → child < graph.size := by
    intro id container found other child member
    obtain ⟨inner, located, -⟩ := (nested.downward id container found other child).mp member
    exact lt_size_of_container? located
  have noneBelow : ∀ child other, ¬ graph.LiesIn child graph.size other := by
    rintro child other ⟨inner, located, link, -⟩
    by_cases top : child = root
    · obtain ⟨container, found, -, parentless⟩ := nested.top
      rw [top, found, Option.some.injEq] at located
      rw [← located, parentless] at link
      cases link
    · obtain ⟨outer, linked, before⟩ := nested.upward child inner located top
      rw [link, Option.some.injEq] at linked
      have bound : child < graph.size := lt_size_of_container? located
      exact Nat.lt_irrefl _ (Nat.lt_trans (linked ▸ before) bound)
  -- a container of the larger graph is the new one, the parent with one more entry, or as before
  have origin : ∀ id after, (graph.addChild kind parent name).container? id = some after →
      (id = graph.size ∧ after = .bare name kind (some parent)) ∨
      ∃ before, graph.container? id = some before ∧ after.parent = before.parent ∧
        after.kind = before.kind ∧ ∀ other, after.listed other =
          before.listed other ++ (if id = parent ∧ other = kind then [graph.size] else []) := by
    intro id after found
    rw [container?_addChild] at found
    split at found
    · rename_i last
      exact .inl ⟨last, (Option.some.inj found).symm⟩
    · rw [container?_update] at found
      split at found
      · rename_i same
        obtain ⟨before, located, rfl⟩ := Option.map_eq_some_iff.mp found
        refine .inr ⟨before, located, by simp, by simp, fun other => ?_⟩
        rw [Container.listed_withChild]
        simp [same.symm]
      · rename_i different
        exact .inr ⟨after, found, rfl, rfl, fun other => by simp [Ne.symm different]⟩
  refine ⟨?_, ?_, ?_, ?_⟩
  · obtain ⟨before, located, rootKind, parentless⟩ := nested.top
    have notLast : root ≠ graph.size := Nat.ne_of_lt (lt_size_of_container? located)
    rw [container?_addChild, if_neg notLast, container?_update, located]
    split
    · exact ⟨_, rfl, by simpa using rootKind, by simpa using parentless⟩
    · exact ⟨_, rfl, rootKind, parentless⟩
  · intro id after found different
    rcases origin id after found with ⟨last, rfl⟩ | ⟨before, located, link, -, -⟩
    · exact ⟨parent, rfl, last ▸ present⟩
    · rw [link]
      exact nested.upward id before located different
  · intro id after found other child
    rw [liesIn_addChild]
    rcases origin id after found with ⟨last, rfl⟩ | ⟨before, located, -, -, lists⟩
    · rw [last]
      constructor
      · intro member
        cases other <;> cases member
      · rintro (inner | ⟨-, same, -⟩)
        · exact absurd inner (noneBelow child other)
        · exact absurd same (Nat.ne_of_gt present)
    · rw [lists, List.mem_append, nested.downward id before located]
      constructor
      · rintro (inner | new)
        · exact .inl inner
        · split at new
          · rename_i here
            exact .inr ⟨List.mem_singleton.mp new, here⟩
          · cases new
      · rintro (inner | ⟨rfl, here⟩)
        · exact .inl inner
        · rw [if_pos here]
          exact .inr List.mem_cons_self
  · intro id after found other
    rcases origin id after found with ⟨-, rfl⟩ | ⟨before, located, -, -, lists⟩
    · cases other <;> exact List.Pairwise.nil
    · rw [lists]
      refine List.pairwise_append.mpr ⟨nested.rising id before located other, by split <;> simp, ?_⟩
      intro earlier member last new
      split at new
      · rw [List.mem_singleton.mp new]
        exact below id before located other earlier member
      · cases new

private theorem WellNested.perform {graph : ContainerGraph} (nested : graph.WellNested)
    (step : Step)
    (present : step.target < graph.size) : (graph.perform step).WellNested := by
  cases step with
  | addNamespace parent name => exact nested.addChild .nameSpace present name
  | addInterface parent name => exact nested.addChild .interface present name
  | addOperation container name =>
      exact nested.update container _ (fun _ => rfl) (fun _ => rfl)
        (fun _ kind => by cases kind <;> rfl)
  | markService container =>
      exact nested.update container _ (fun _ => rfl) (fun _ => rfl)
        (fun _ kind => by cases kind <;> rfl)
  | markClient container =>
      exact nested.update container _ (fun _ => rfl) (fun _ => rfl)
        (fun _ kind => by cases kind <;> rfl)

theorem Reachable.wellNested {graph : ContainerGraph} (reachable : graph.Reachable) :
    graph.WellNested :=
  reachable.induction wellNested_ofRoot fun _ step nested present => nested.perform step present

end ContainerGraph

end SdkClients
