import SdkClients.Proofs.ClientTree.BuiltTree

set_option autoImplicit false

/-!
Looking up, looking down, and the roots in between.

Links up lead from a container to earlier and earlier positions and so to the root, past exactly the
containers from which lists of nested containers lead down to it. There is one way up, so two
containers around the same one lie inside one another. Root clients do not, hence at most one of them
stands around a service, and the outermost service around it is one.
-/

namespace SdkClients

namespace ContainerGraph

open Relation (ReflTransGen)

variable {graph : ContainerGraph}

/-- The walk up from a container, if there is one: the container itself, and then the walk up from
the one around it. -/
inductive Climbs (graph : ContainerGraph) : Option ContainerId → List ContainerId → Prop
  | done : Climbs graph none []
  | up {id : ContainerId} {others : List ContainerId} : Climbs graph (graph.parentOf? id) others →
      Climbs graph (some id) (id :: others)

private theorem Climbs.unique {start : Option ContainerId} {listed others : List ContainerId}
    (climb : graph.Climbs start listed) (again : graph.Climbs start others) : listed = others := by
  induction climb generalizing others with
  | done =>
      cases again
      rfl
  | up _ ih =>
      cases again with
      | up later => rw [ih later]

private theorem WellNested.climbs_ancestors (nested : graph.WellNested) (id : ContainerId) :
    graph.Climbs (graph.parentOf? id) (graph.ancestors id) := by
  induction id using Nat.strongRecOn with
  | ind id ih =>
      cases link : graph.parentOf? id with
      | none =>
          rw [ancestors_of_parentless link]
          exact .done
      | some outer =>
          rw [nested.ancestors_of_parent link]
          exact .up (ih outer (nested.parentOf?_lt link))

private theorem WellNested.ancestors_falling (nested : graph.WellNested) (id : ContainerId) :
    (id :: graph.ancestors id).Pairwise (· > ·) := by
  induction id using Nat.strongRecOn with
  | ind id ih =>
      cases link : graph.parentOf? id with
      | none =>
          rw [ancestors_of_parentless link]
          exact List.pairwise_singleton _ id
      | some outer =>
          have before : outer < id := nested.parentOf?_lt link
          have falling := ih outer before
          rw [nested.ancestors_of_parent link]
          refine List.pairwise_cons.mpr ⟨List.forall_mem_cons.mpr ⟨before, ?_⟩, falling⟩
          intro further inside
          exact Nat.lt_trans ((List.pairwise_cons.mp falling).1 further inside) before

private theorem WellNested.parentOf?_eq_none_iff (nested : graph.WellNested) {id : ContainerId} :
    graph.parentOf? id = none ↔ id = root ∨ graph.size ≤ id := by
  constructor
  · intro parentless
    by_cases top : id = root
    · exact .inl top
    · refine .inr (Nat.le_of_not_lt fun present => ?_)
      obtain ⟨container, found⟩ := exists_container_of_lt present
      obtain ⟨outer, link, -⟩ := nested.upward id container found top
      cases parentless.symm.trans (parentOf?_eq_some_iff.mpr ⟨container, found, link⟩)
  · rintro (rfl | absent)
    · exact nested.parentOf?_root
    · rw [parentOf?, container?_eq_none_iff.mpr absent, Option.bind_none]

private theorem WellNested.ancestors_eq_nil_iff (nested : graph.WellNested) {id : ContainerId} :
    graph.ancestors id = [] ↔ id = root ∨ graph.size ≤ id := by
  rw [← nested.parentOf?_eq_none_iff]
  constructor
  · intro empty
    cases link : graph.parentOf? id with
    | none => rfl
    | some outer =>
        rw [nested.ancestors_of_parent link] at empty
        cases empty
  · exact ancestors_of_parentless

/-- Whoever has somebody around him has the root around everybody. -/
private theorem WellNested.getLast?_ancestors (nested : graph.WellNested) (id : ContainerId)
    (filled : graph.ancestors id ≠ []) : (graph.ancestors id).getLast? = some root := by
  induction id using Nat.strongRecOn with
  | ind id ih =>
      cases link : graph.parentOf? id with
      | none => exact absurd (ancestors_of_parentless link) filled
      | some outer =>
          rw [nested.ancestors_of_parent link]
          have present : outer < graph.size := by
            have nests : graph.Nests outer id := nested.nests_iff.mpr link
            exact Nat.lt_trans (nested.nests_lt nests) (nested.inner_lt_size nests)
          by_cases empty : graph.ancestors outer = []
          · have top : outer = root := (nested.ancestors_eq_nil_iff.mp empty).resolve_right
              (Nat.not_le.mpr present)
            rw [empty, top]
            rfl
          · rw [List.getLast?_cons_of_ne_nil empty]
            exact ih outer (nested.parentOf?_lt link) empty

/-- The containers around a container are those that look down on it. -/
structure LooksBothWays (graph : ContainerGraph) (id : ContainerId) : Prop where
  /-- They are found by following links up to the end, and there is an end. -/
  walk : ∀ listed, graph.Climbs (graph.parentOf? id) listed ↔ listed = graph.ancestors id
  /-- Their positions fall, from the container on. -/
  falling : (id :: graph.ancestors id).Pairwise (· > ·)
  /-- The last one is the root. -/
  last : graph.ancestors id ≠ [] → (graph.ancestors id).getLast? = some root
  /-- Only the root and positions outside the graph have none. -/
  none_iff : graph.ancestors id = [] ↔ id = root ∨ graph.size ≤ id
  /-- From exactly these, one or more steps down lead to the container. -/
  mem_iff : ∀ outer, outer ∈ graph.ancestors id ↔ graph.Below outer id

private theorem WellNested.looksBothWays (nested : graph.WellNested) (id : ContainerId) :
    graph.LooksBothWays id where
  walk := by
    intro listed
    constructor
    · intro climb
      exact climb.unique (nested.climbs_ancestors id)
    · rintro rfl
      exact nested.climbs_ancestors id
  falling := nested.ancestors_falling id
  last := nested.getLast?_ancestors id
  none_iff := nested.ancestors_eq_nil_iff
  mem_iff := fun _ => nested.mem_ancestors_iff

/-- Two containers around the same one, or at it, lie inside one another or are the same. -/
private theorem WellNested.comparable (nested : graph.WellNested) {first second inner : ContainerId}
    (left : ReflTransGen graph.Nests first inner) (right : ReflTransGen graph.Nests second inner) :
    ReflTransGen graph.Nests first second ∨ ReflTransGen graph.Nests second first := by
  have upward : Relator.RightUnique (Function.swap graph.Nests) :=
    fun _ _ _ one other => nested.nests_unique one other
  have chained := ReflTransGen.total_of_right_unique upward left.swap right.swap
  simp only [Relation.reflTransGen_swap] at chained
  exact chained.symm

end ContainerGraph

namespace ClientTree

open ContainerGraph
open Relation (ReflTransGen)

variable {graph : ContainerGraph} {rule : PromotionRule}

private theorem mem_roots_iff {tree : ClientTree} {client : Client} :
    client ∈ tree.roots ↔ client ∈ tree.clients ∧ client.parent = none := by
  rw [roots, List.mem_filter, Option.isNone_iff_eq_none]

private theorem container_of_mem_roots (nested : graph.WellNested) {top : Client}
    (root : top ∈ (build graph rule).roots) : top.container ∈ graph.clientRoots := by
  obtain ⟨member, parentless⟩ := mem_roots_iff.mp root
  exact nested.mem_clientRoots_iff.mpr ((parent_eq_none_iff nested member).mp parentless)

private theorem exists_root_of_mem_clientRoots (rule : PromotionRule) (nested : graph.WellNested)
    {id : ContainerId} (isRoot : id ∈ graph.clientRoots) :
    ∃ top ∈ (build graph rule).roots, top.container = id := by
  have clientRoot := nested.mem_clientRoots_iff.mp isRoot
  have found : ∃ client ∈ (build graph rule).clients, client.container = id :=
    (exists_client_iff nested).mpr (.inl clientRoot)
  obtain ⟨top, member, rfl⟩ := found
  exact ⟨top, mem_roots_iff.mpr ⟨member, (parent_eq_none_iff nested member).mpr clientRoot⟩, rfl⟩

private theorem eq_of_roots_nested (nested : graph.WellNested) {first second : Client}
    (left : first ∈ (build graph rule).roots) (right : second ∈ (build graph rule).roots)
    (climbed : ReflTransGen graph.Nests first.container second.container) : first = second := by
  rcases Relation.reflTransGen_iff_eq_or_transGen.mp climbed with same | below
  · exact (build_indexed nested).eq_of_container_eq (mem_roots_iff.mp left).1
      (mem_roots_iff.mp right).1 same.symm
  · exact absurd below (nested.clientRoots_apart (container_of_mem_roots nested left)
      (container_of_mem_roots nested right))

/-- The root clients of a tree share the services of its graph among them. -/
structure RootsApart (tree : ClientTree) : Prop where
  /-- No root stands at or around the container of another one. -/
  antichain : tree.roots.Pairwise fun first second =>
    ¬ ReflTransGen tree.graph.Nests first.container second.container ∧
      ¬ ReflTransGen tree.graph.Nests second.container first.container
  /-- Every service is at or below exactly one of them. -/
  parted : ∀ id, tree.graph.isService id = true →
    ∃! top, top ∈ tree.roots ∧ ReflTransGen tree.graph.Nests top.container id

private theorem build_rootsApart (nested : graph.WellNested) : (build graph rule).RootsApart where
  antichain := by
    have distinct : (build graph rule).roots.Pairwise (· ≠ ·) :=
      (List.Nodup.of_map _ (build_indexed nested).distinct).sublist List.filter_sublist
    refine distinct.imp_of_mem fun left right different => ⟨fun climbed => ?_, fun climbed => ?_⟩
    · exact different (eq_of_roots_nested nested left right climbed)
    · exact different (eq_of_roots_nested nested right left climbed).symm
  parted := by
    intro id service
    obtain ⟨outermost, isTop, climbed⟩ := nested.exists_topService service
    have isRoot : outermost ∈ graph.clientRoots := nested.mem_clientRoots_iff.mpr
      (.inl (mem_topServices_iff.mp isTop))
    obtain ⟨top, root, rfl⟩ := exists_root_of_mem_clientRoots rule nested isRoot
    refine ⟨top, ⟨root, climbed⟩, ?_⟩
    rintro other ⟨another, climbedOther⟩
    rcases nested.comparable climbed climbedOther with down | up
    · exact (eq_of_roots_nested nested root another down).symm
    · exact eq_of_roots_nested nested another root up

/-- Links up and lists downward say the same of every graph that calls have made, and so the roots
of its client trees keep its services apart. -/
theorem ancestors_partServices (reachable : graph.Reachable) :
    (∀ id, graph.LooksBothWays id) ∧ ∀ rule, (build graph rule).RootsApart :=
  ⟨reachable.wellNested.looksBothWays, fun _ => build_rootsApart reachable.wellNested⟩

theorem ancestors_partServices_twoServices :
    twoServices.Reachable ∧ twoServices.LooksBothWays 4 ∧ twoServices.ancestors 4 = [1, 0] ∧
      (build twoServices .nonEmpty).RootsApart ∧ twoServices.isService 3 = true := by
  obtain ⟨views, apart⟩ := ancestors_partServices reachable_twoServices
  exact ⟨reachable_twoServices, views 4, by decide, apart .nonEmpty, by decide⟩

end ClientTree

end SdkClients
