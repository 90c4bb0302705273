import SdkClients.ClientTree.Build
import SdkClients.Proofs.ContainerGraph.Nesting
import Mathlib.Logic.Relation

set_option autoImplicit false

/-!
Looking up and down a graph.

Following links up from a container gives exactly the containers that hold it at some depth.
The containers of the root clients are the topmost services, or the root where nothing is
marked; none of them holds another one.
-/

namespace SdkClients.ContainerGraph

/-- A container lists another one right inside it. -/
def Nests (graph : ContainerGraph) (outer inner : ContainerId) : Prop :=
  ∃ container, graph.container? outer = some container ∧ inner ∈ container.children

/-- A container lies strictly inside another one: one or more steps down lead to it. -/
def Below (graph : ContainerGraph) (outer inner : ContainerId) : Prop :=
  Relation.TransGen graph.Nests outer inner

def nestedIn (graph : ContainerGraph) (id : ContainerId) : List ContainerId :=
  match graph.container? id with
  | none => []
  | some container => container.children

variable {graph : ContainerGraph}

theorem mem_nestedIn_iff {outer inner : ContainerId} :
    inner ∈ graph.nestedIn outer ↔ graph.Nests outer inner := by
  unfold nestedIn Nests
  cases graph.container? outer <;> simp

theorem parentOf?_eq_some_iff {id outer : ContainerId} :
    graph.parentOf? id = some outer ↔
      ∃ container, graph.container? id = some container ∧ container.parent = some outer := by
  simp only [parentOf?, Option.bind_eq_some_iff]

theorem WellNested.parentOf?_lt (nested : graph.WellNested) {id outer : ContainerId}
    (link : graph.parentOf? id = some outer) : outer < id := by
  obtain ⟨container, found, parent⟩ := parentOf?_eq_some_iff.mp link
  by_cases top : id = root
  · obtain ⟨rootContainer, rootFound, -, parentless⟩ := nested.top
    rw [top, rootFound, Option.some.injEq] at found
    rw [← found, parentless] at parent
    cases parent
  · obtain ⟨other, linked, before⟩ := nested.upward id container found top
    rw [parent, Option.some.injEq] at linked
    exact linked ▸ before

theorem WellNested.size_pos (nested : graph.WellNested) : root < graph.size := by
  obtain ⟨container, found, -⟩ := nested.top
  exact lt_size_of_container? found

theorem WellNested.nests_iff (nested : graph.WellNested) {outer inner : ContainerId} :
    graph.Nests outer inner ↔ graph.parentOf? inner = some outer := by
  constructor
  · rintro ⟨container, found, member⟩
    obtain ⟨kind, listed⟩ := Container.mem_children.mp member
    obtain ⟨child, located, link, -⟩ := (nested.downward outer container found kind inner).mp listed
    exact parentOf?_eq_some_iff.mpr ⟨child, located, link⟩
  · intro link
    obtain ⟨child, located, parent⟩ := parentOf?_eq_some_iff.mp link
    have before : outer < inner := nested.parentOf?_lt link
    have present : outer < graph.size := Nat.lt_trans before (lt_size_of_container? located)
    obtain ⟨container, found⟩ := exists_container_of_lt present
    refine ⟨container, found, Container.mem_children.mpr ⟨child.kind, ?_⟩⟩
    exact (nested.downward outer container found child.kind inner).mpr ⟨child, located, parent, rfl⟩

theorem WellNested.nests_lt (nested : graph.WellNested) {outer inner : ContainerId}
    (nests : graph.Nests outer inner) : outer < inner :=
  nested.parentOf?_lt (nested.nests_iff.mp nests)

theorem WellNested.nests_unique (nested : graph.WellNested) {first second inner : ContainerId}
    (left : graph.Nests first inner) (right : graph.Nests second inner) : first = second := by
  rw [nested.nests_iff] at left right
  exact Option.some.inj (left.symm.trans right)

theorem WellNested.inner_lt_size (nested : graph.WellNested) {outer inner : ContainerId}
    (nests : graph.Nests outer inner) : inner < graph.size := by
  obtain ⟨child, located, -⟩ := parentOf?_eq_some_iff.mp (nested.nests_iff.mp nests)
  exact lt_size_of_container? located

theorem WellNested.children_nodup (nested : graph.WellNested) {id : ContainerId}
    {container : Container} (found : graph.container? id = some container) :
    container.children.Nodup := by
  have distinct : ∀ kind, (container.listed kind).Nodup := fun kind =>
    (nested.rising id container found kind).imp Nat.ne_of_lt
  refine List.nodup_append.mpr ⟨distinct .nameSpace, distinct .interface, ?_⟩
  rintro child nameSpace other interface rfl
  obtain ⟨first, located, -, firstKind⟩ :=
    (nested.downward id container found .nameSpace child).mp nameSpace
  obtain ⟨second, again, -, secondKind⟩ :=
    (nested.downward id container found .interface child).mp interface
  rw [located, Option.some.injEq] at again
  rw [← again, firstKind] at secondKind
  cases secondKind

theorem WellNested.below_lt (nested : graph.WellNested) {outer inner : ContainerId}
    (below : graph.Below outer inner) : outer < inner := by
  induction below with
  | single nests => exact nested.nests_lt nests
  | tail _ nests ih => exact Nat.lt_trans ih (nested.nests_lt nests)

/-! ### Ancestors -/

theorem WellNested.parentOf?_root (nested : graph.WellNested) : graph.parentOf? root = none := by
  cases link : graph.parentOf? root with
  | none => rfl
  | some outer => exact absurd (nested.parentOf?_lt link) (Nat.not_lt_zero outer)

private theorem WellNested.ancestorsWithin_of_le (nested : graph.WellNested) {few many : Nat}
    {id : ContainerId} (enough : id ≤ few) (more : few ≤ many) :
    graph.ancestorsWithin many id = graph.ancestorsWithin few id := by
  -- links up lead to smaller positions, so a position bounds the number of steps up from it
  induction few generalizing many id with
  | zero =>
      have top : id = root := Nat.le_zero.mp enough
      rw [top]
      cases many with
      | zero => rfl
      | succ many => simp only [ancestorsWithin, nested.parentOf?_root]
  | succ few ih =>
      obtain ⟨many, rfl⟩ : ∃ fewer, many = fewer + 1 := ⟨many - 1, by omega⟩
      cases link : graph.parentOf? id with
      | none => simp only [ancestorsWithin, link]
      | some outer =>
          have before : outer < id := nested.parentOf?_lt link
          have close : outer ≤ few := Nat.le_of_lt_succ (Nat.lt_of_lt_of_le before enough)
          simp only [ancestorsWithin, link]
          rw [ih close (Nat.le_of_succ_le_succ more)]

theorem ancestors_of_parentless {id : ContainerId} (parentless : graph.parentOf? id = none) :
    graph.ancestors id = [] := by
  unfold ancestors
  cases graph.size with
  | zero => rfl
  | succ size => simp only [ancestorsWithin, parentless]

theorem WellNested.ancestors_of_parent (nested : graph.WellNested) {id outer : ContainerId}
    (link : graph.parentOf? id = some outer) :
    graph.ancestors id = outer :: graph.ancestors outer := by
  obtain ⟨container, found, -⟩ := parentOf?_eq_some_iff.mp link
  have present : id < graph.size := lt_size_of_container? found
  have before : outer < id := nested.parentOf?_lt link
  obtain ⟨size, sizeEq⟩ : ∃ size, graph.size = size + 1 :=
    Nat.exists_eq_succ_of_ne_zero (Nat.ne_of_gt nested.size_pos)
  unfold ancestors
  rw [sizeEq] at present ⊢
  have close : outer ≤ size := Nat.le_of_lt (Nat.lt_of_lt_of_le before (Nat.le_of_lt_succ present))
  rw [nested.ancestorsWithin_of_le close (Nat.le_succ size)]
  simp only [ancestorsWithin, link]

theorem WellNested.mem_ancestors_iff (nested : graph.WellNested) {outer id : ContainerId} :
    outer ∈ graph.ancestors id ↔ graph.Below outer id := by
  induction id using Nat.strongRecOn with
  | ind id ih =>
      unfold Below
      rw [Relation.TransGen.tail'_iff]
      cases link : graph.parentOf? id with
      | none =>
          rw [ancestors_of_parentless link]
          constructor
          · intro member
            cases member
          · rintro ⟨middle, -, nests⟩
            rw [nested.nests_iff, link] at nests
            cases nests
      | some parent =>
          rw [nested.ancestors_of_parent link, List.mem_cons, ih parent (nested.parentOf?_lt link)]
          have nests : graph.Nests parent id := nested.nests_iff.mpr link
          constructor
          · rintro (rfl | below)
            · exact ⟨_, .refl, nests⟩
            · exact ⟨parent, below.to_reflTransGen, nests⟩
          · rintro ⟨middle, path, last⟩
            rw [nested.nests_unique last nests] at path
            rcases Relation.reflTransGen_iff_eq_or_transGen.mp path with same | below
            · exact .inl same.symm
            · exact .inr below

/-! ### The containers of the root clients -/

/-- A service container that is not inside another one, or the root container if there is no
service container. -/
def IsClientRoot (graph : ContainerGraph) (id : ContainerId) : Prop :=
  (graph.isService id = true ∧ ∀ outer ∈ graph.ancestors id, graph.isService outer = false) ∨
    (id = root ∧ ∀ other, graph.isService other = false)

theorem lt_size_of_isService {id : ContainerId} (service : graph.isService id = true) :
    id < graph.size := by
  cases found : graph.container? id with
  | none => simp [isService, found] at service
  | some container => exact lt_size_of_container? found

theorem mem_topServices_iff {id : ContainerId} :
    id ∈ graph.topServices ↔
      graph.isService id = true ∧ ∀ outer ∈ graph.ancestors id, graph.isService outer = false := by
  simp only [topServices, List.mem_filter, List.mem_range, Bool.and_eq_true, Bool.not_eq_true',
    List.any_eq_false, Bool.not_eq_true]
  constructor
  · rintro ⟨-, service, outermost⟩
    exact ⟨service, outermost⟩
  · rintro ⟨service, outermost⟩
    exact ⟨lt_size_of_isService service, service, outermost⟩

theorem WellNested.exists_topService (nested : graph.WellNested) {id : ContainerId}
    (service : graph.isService id = true) :
    ∃ top ∈ graph.topServices, Relation.ReflTransGen graph.Nests top id := by
  induction id using Nat.strongRecOn with
  | ind id ih =>
      by_cases outermost : ∀ outer ∈ graph.ancestors id, graph.isService outer = false
      · exact ⟨id, mem_topServices_iff.mpr ⟨service, outermost⟩, .refl⟩
      · obtain ⟨outer, around, marked⟩ : ∃ outer ∈ graph.ancestors id,
            graph.isService outer = true := by
          simpa using outermost
        have below : graph.Below outer id := nested.mem_ancestors_iff.mp around
        obtain ⟨top, member, path⟩ := ih outer (nested.below_lt below) marked
        exact ⟨top, member, path.trans below.to_reflTransGen⟩

private theorem WellNested.topServices_eq_nil_iff (nested : graph.WellNested) :
    graph.topServices = [] ↔ ∀ id, graph.isService id = false := by
  constructor
  · intro empty id
    cases service : graph.isService id with
    | false => rfl
    | true =>
        obtain ⟨top, member, -⟩ := nested.exists_topService service
        rw [empty] at member
        cases member
  · intro unmarked
    refine List.eq_nil_iff_forall_not_mem.mpr fun id member => ?_
    have service := (mem_topServices_iff.mp member).1
    rw [unmarked id] at service
    cases service

theorem WellNested.mem_clientRoots_iff (nested : graph.WellNested) {id : ContainerId} :
    id ∈ graph.clientRoots ↔ graph.IsClientRoot id := by
  unfold clientRoots IsClientRoot
  rw [← nested.topServices_eq_nil_iff, ← mem_topServices_iff]
  cases graph.topServices with
  | nil => simp
  | cons top others => simp

theorem clientRoots_pairwise : graph.clientRoots.Pairwise (· < ·) := by
  unfold clientRoots
  split
  · exact List.pairwise_singleton _ _
  · exact List.pairwise_lt_range.sublist List.filter_sublist

theorem WellNested.lt_size_of_mem_clientRoots (nested : graph.WellNested) {id : ContainerId}
    (member : id ∈ graph.clientRoots) : id < graph.size := by
  rcases nested.mem_clientRoots_iff.mp member with ⟨service, -⟩ | ⟨rfl, -⟩
  · exact lt_size_of_isService service
  · exact nested.size_pos

theorem WellNested.clientRoots_apart (nested : graph.WellNested) {first second : ContainerId}
    (left : first ∈ graph.clientRoots) (right : second ∈ graph.clientRoots) :
    ¬ graph.Below first second := by
  intro below
  rw [nested.mem_clientRoots_iff] at left right
  have before : first < second := nested.below_lt below
  rcases right with ⟨marked, outermost⟩ | ⟨rfl, -⟩
  · have unmarked := outermost first (nested.mem_ancestors_iff.mpr below)
    rcases left with ⟨service, -⟩ | ⟨-, none⟩
    · rw [unmarked] at service
      cases service
    · rw [none second] at marked
      cases marked
  · exact Nat.not_lt_zero first before

/-! ### A sample graph -/

/-- Services at two depths below an unmarked root, next to a container without content. The
last change is refused. -/
def twoServiceSteps : List Step :=
  [.addNamespace 0 "B", .addInterface 0 "C", .addNamespace 1 "D", .addInterface 1 "E",
    .addNamespace 1 "F", .addOperation 4 "run", .markService 1, .markService 2, .markService 3,
    .addNamespace 9 "X"]

def twoServices : ContainerGraph := (ofRoot "A").run twoServiceSteps

theorem reachable_twoServices : twoServices.Reachable := ⟨"A", twoServiceSteps, rfl⟩

example : twoServices.clientRoots = [1, 2] := by decide

end SdkClients.ContainerGraph
