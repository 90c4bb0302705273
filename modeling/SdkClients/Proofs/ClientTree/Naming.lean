import SdkClients.Proofs.ClientTree.BuiltTree

set_option autoImplicit false

/-!
The qualified names of a built tree.

In a built tree parent links run along the nesting of the containers and end at a root. A client
is therefore named by the containers from a root container down to its own one.
-/

namespace SdkClients

/-- The names from a root container down to a container. -/
inductive ContainerGraph.NamedFrom (graph : ContainerGraph) : ContainerId → List String → Prop
  | top {id : ContainerId} {container : Container} : id ∈ graph.clientRoots →
      graph.container? id = some container → NamedFrom graph id [container.name]
  | inside {outer id : ContainerId} {path : List String} {container : Container} :
      NamedFrom graph outer path → graph.Nests outer id → graph.container? id = some container →
      NamedFrom graph id (path ++ [container.name])

namespace ClientTree

open ContainerGraph

variable {graph : ContainerGraph} {rule : PromotionRule}

private theorem exists_root_of_named {id : ContainerId} {path : List String}
    (named : graph.NamedFrom id path) :
    ∃ top ∈ graph.clientRoots, Relation.ReflTransGen graph.Nests top id := by
  induction named with
  | top root _ => exact ⟨_, root, .refl⟩
  | inside _ nests _ ih =>
      obtain ⟨top, root, climbed⟩ := ih
      exact ⟨top, root, climbed.tail nests⟩

private theorem exists_named_of_climb (nested : graph.WellNested) {top id : ContainerId}
    (root : top ∈ graph.clientRoots) (climbed : Relation.ReflTransGen graph.Nests top id) :
    ∃ path, graph.NamedFrom id path := by
  induction climbed with
  | refl =>
      obtain ⟨container, found⟩ := exists_container_of_lt (nested.lt_size_of_mem_clientRoots root)
      exact ⟨_, .top root found⟩
  | tail _ nests ih =>
      obtain ⟨path, named⟩ := ih
      obtain ⟨container, found⟩ := exists_container_of_lt (nested.inner_lt_size nests)
      exact ⟨_, .inside named nests found⟩

theorem exists_named (nested : graph.WellNested) {client : Client}
    (member : client ∈ (build graph rule).clients) :
    ∃ path, graph.NamedFrom client.container path := by
  obtain ⟨top, root, climbed⟩ := exists_root_above nested member
  exact exists_named_of_climb nested root climbed

theorem name_of_found {client : Client} {container : Container}
    (member : client ∈ (build graph rule).clients)
    (found : graph.container? client.container = some container) :
    client.name = container.name := by
  obtain ⟨own, located, same⟩ := build_named member
  rw [found, Option.some.injEq] at located
  rw [same, located]

private theorem namesUpward_of_named (nested : graph.WellNested) {id : ContainerId}
    {path : List String}
    (named : graph.NamedFrom id path) {client : Client}
    (member : client ∈ (build graph rule).clients) (here : client.container = id) {allowed : Nat}
    (enough : client.id < allowed) :
    (build graph rule).namesUpward allowed (some client) = some path.reverse := by
  -- links lead to smaller ids, so an id is a bound on the length of its chain
  induction named generalizing client allowed with
  | top root found =>
      obtain ⟨allowed, rfl⟩ := Nat.exists_eq_succ_of_ne_zero (Nat.ne_zero_of_lt enough)
      have isRoot : graph.IsClientRoot client.container := by
        rw [here]
        exact nested.mem_clientRoots_iff.mp root
      have parentless : client.parent = none := (parent_eq_none_iff nested member).mpr isRoot
      have name := name_of_found member (here ▸ found)
      simp only [namesUpward, parentless, name, Option.bind_none, Option.map_some,
        List.reverse_singleton]
  | @inside outer id path container namedOuter nests found ih =>
      obtain ⟨allowed, rfl⟩ := Nat.exists_eq_succ_of_ne_zero (Nat.ne_zero_of_lt enough)
      have name := name_of_found member (here ▸ found)
      rcases build_origin nested member with ⟨-, root⟩ | ⟨parent, listed, link, before, under⟩
      · obtain ⟨top, isTop, climbed⟩ := exists_root_of_named namedOuter
        rw [here] at root
        exact absurd (.tail' climbed nests) (nested.clientRoots_apart isTop root)
      · rw [here] at under
        have sameOuter : parent.container = outer := nested.nests_unique under nests
        have fewer : parent.id < allowed :=
          Nat.lt_of_lt_of_le before (Nat.le_of_lt_succ enough)
        have upper := ih listed sameOuter fewer
        have located := (build_indexed nested).client?_id listed
        simp only [namesUpward, link, Option.bind_some, located, upper, name, Option.map_some,
          List.reverse_append, List.reverse_singleton, List.singleton_append]

theorem qualifiedName?_of_named (nested : graph.WellNested) {client : Client}
    (member : client ∈ (build graph rule).clients) {path : List String}
    (named : graph.NamedFrom client.container path) :
    (build graph rule).qualifiedName? client.id = some (String.intercalate "." path) := by
  have indexed : (build graph rule).Indexed := build_indexed nested
  unfold qualifiedName?
  rw [indexed.client?_id member,
    namesUpward_of_named nested named member rfl (indexed.id_lt_size member), Option.map_some,
    List.reverse_reverse]

end ClientTree

end SdkClients
