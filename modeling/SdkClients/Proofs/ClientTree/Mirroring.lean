import SdkClients.Proofs.ClientTree.Agreement
import SdkClients.Proofs.ContainerGraph.Likeness

set_option autoImplicit false

/-!
Trees of graphs that read back to the same.

Two graphs may have been filled in different orders. As long as no two services compete for the
first place, building goes through both in step: it makes clients with the same numbers, names
and parents, for containers that read back to the same. Whatever is asked about a tree by number
or by name is then answered alike.
-/

namespace SdkClients.ClientTree

open ContainerGraph

variable {first second : ContainerGraph}

/-- Clients that differ at most in the positions of their containers, where the same stands. -/
structure Twins (first second : ContainerGraph) (left right : Client) : Prop where
  id : left.id = right.id
  name : left.name = right.name
  parent : left.parent = right.parent
  container : first.Alike second left.container right.container

section Building

variable (firstNested : first.WellNested) (secondNested : second.WellNested)

include firstNested secondNested

private theorem number_forall₂ (parent : Option ClientId) (next : ClientId)
    {ids others : List ContainerId}
    (alike : List.Forall₂ (first.Alike second) ids others) :
    List.Forall₂ (Twins first second) (number first parent next ids)
      (number second parent next others) := by
  induction alike generalizing next with
  | nil => exact .nil
  | cons head _ ih =>
      obtain ⟨here, there, foundHere, foundThere, same⟩ :=
        head.exists_containers firstNested secondNested
      simp only [number, foundHere, foundThere]
      exact .cons ⟨rfl, same.name, rfl, head⟩ (ih (next + 1))

private theorem expand_forall₂ (rule : PromotionRule) (fuel : Nat) (next : ClientId)
    {queue others : List Client} (twins : List.Forall₂ (Twins first second) queue others) :
    List.Forall₂ (Twins first second) (expand first rule fuel queue next)
      (expand second rule fuel others next) := by
  induction fuel generalizing queue others next with
  | zero => simpa using twins
  | succ fuel ih =>
      cases twins with
      | nil => simp
      | @cons left right _ _ head tail =>
          have nested := number_forall₂ firstNested secondNested (some left.id) next
            (head.container.promoted firstNested secondNested rule)
          have later := ih (next + (number first (some left.id) next
            (first.promoted rule left.container)).length) (List.rel_append tail nested)
          -- as many clients were made on both sides, so both go on at the same number
          rw [expand, expand, ← head.id, ← nested.length_eq]
          exact .cons head later

private theorem build_twins (same : first.Alike second root root) (firstSingle : first.SingleTop)
    (secondSingle : second.SingleTop) (rule : PromotionRule) :
    List.Forall₂ (Twins first second) (build first rule).clients (build second rule).clients := by
  have roots : List.Forall₂ (Twins first second) (rootClients first) (rootClients second) :=
    number_forall₂ firstNested secondNested none 0
      (clientRoots_alike firstNested secondNested same firstSingle secondSingle)
  -- the graphs need not be known to have the same size for fuel that is enough for both
  rw [build_clients_of_le firstNested (Nat.le_max_left first.size second.size),
    build_clients_of_le secondNested (Nat.le_max_right first.size second.size), roots.length_eq]
  exact expand_forall₂ firstNested secondNested rule _ _ roots

end Building

/-! ### Answers -/

private theorem ids_eq {lefts rights : List Client}
    (twins : List.Forall₂ (Twins first second) lefts rights) :
    lefts.map Client.id = rights.map Client.id :=
  map_eq_of_forall₂ (fun _ _ twin => twin.id) twins

section Answers

variable {left right : ClientTree}
  (twins : List.Forall₂ (Twins first second) left.clients right.clients)

include twins

private theorem client?_twins (id : ClientId) :
    Option.Rel (Twins first second) (left.client? id) (right.client? id) :=
  getElem?_forall₂ twins id

private theorem roots_twins : List.Forall₂ (Twins first second) left.roots right.roots := by
  refine filter_forall₂ (fun one other twin => ?_) twins
  rw [twin.parent]

private theorem nestedClients_twins {one other : Client} (twin : Twins first second one other) :
    List.Forall₂ (Twins first second) (left.nestedClients one) (right.nestedClients other) := by
  refine filter_forall₂ (fun sub partner inner => ?_) twins
  rw [inner.parent, twin.id]

private theorem namesUpward_twins (allowed : Nat) {one other : Option Client}
    (twin : Option.Rel (Twins first second) one other) :
    left.namesUpward allowed one = right.namesUpward allowed other := by
  induction allowed generalizing one other with
  | zero => cases twin <;> rfl
  | succ allowed ih =>
      cases twin with
      | none => rfl
      | @some one other twin =>
          have upper : Option.Rel (Twins first second) (one.parent.bind left.client?)
              (other.parent.bind right.client?) := by
            rw [twin.parent]
            cases other.parent with
            | none => exact .none
            | some parent => exact client?_twins twins parent
          rw [namesUpward, namesUpward, twin.name, ih upper]

private theorem qualifiedName?_twins (id : ClientId) :
    left.qualifiedName? id = right.qualifiedName? id := by
  have size : left.size = right.size := twins.length_eq
  unfold qualifiedName?
  rw [size, namesUpward_twins twins right.size (client?_twins twins id)]

private theorem find?_twins (qualifiedName : String) :
    Option.Rel (Twins first second) (left.find? qualifiedName) (right.find? qualifiedName) := by
  refine find?_forall₂ (fun one other twin => ?_) twins
  rw [qualifiedName?_twins twins, twin.id]

end Answers

section Listings

variable {rule : PromotionRule} (firstNested : first.WellNested) (secondNested : second.WellNested)
  (twins : List.Forall₂ (Twins first second) (build first rule).clients (build second rule).clients)

include firstNested secondNested twins

private theorem listing_twins {one other : Client} (twin : Twins first second one other)
    {listed others : List Client} (left : (build first rule).Listing one listed)
    (right : (build second rule).Listing other others) :
    List.Forall₂ (Twins first second) listed others := by
  have size : (build first rule).size = (build second rule).size := twins.length_eq
  have alike : ∀ one other, Twins first second one other → List.Forall₂ (Twins first second)
      ((build first rule).nestedClients one) ((build second rule).nestedClients other) :=
    fun _ _ twin => nestedClients_twins twins twin
  have swept := (listing_forall₂ firstNested alike twin left).2
  rw [size, sweep_nestedClients secondNested right] at swept
  exact (List.forall₂_cons.mp swept).2

private theorem subClients_twins (id : ClientId) (recursive : Bool) :
    ((build first rule).subClients id recursive).map (List.map Client.id) =
      ((build second rule).subClients id recursive).map (List.map Client.id) := by
  have found := client?_twins twins id
  generalize here : (build first rule).client? id = atFirst at found
  generalize there : (build second rule).client? id = atSecond at found
  cases found with
  | none => simp only [subClients, here, there]
  | @some one other twin =>
      obtain ⟨left, rfl⟩ := (build_indexed firstNested).client?_iff.mp here
      obtain ⟨right, sameId⟩ := (build_indexed secondNested).client?_iff.mp there
      cases recursive with
      | false =>
          rw [subClients_direct firstNested left, ← sameId, subClients_direct secondNested right]
          exact congrArg Except.ok (ids_eq (nestedClients_twins twins twin))
      | true =>
          obtain ⟨listed, listing, success⟩ := subClients_recursive firstNested left
          obtain ⟨others, otherListing, otherSuccess⟩ := subClients_recursive secondNested right
          rw [success, ← sameId, otherSuccess]
          exact congrArg Except.ok (ids_eq
            (listing_twins firstNested secondNested twins twin listing otherListing))

end Listings

/-- Two trees cannot be told apart by the numbers, names and parents of their clients, nor by
what stands at the containers; neither can they be by any answer that gives client ids. -/
structure Mirrors (left right : ClientTree) : Prop where
  clients : List.Forall₂ (fun one other : Client =>
      one.id = other.id ∧ one.name = other.name ∧ one.parent = other.parent ∧
        ∃ subtree, left.graph.readBack one.container = some subtree ∧
          right.graph.readBack other.container = some subtree)
    left.clients right.clients
  roots : left.roots.map Client.id = right.roots.map Client.id
  qualifiedNames : ∀ id, left.qualifiedName? id = right.qualifiedName? id
  finds : ∀ name, (left.find? name).map Client.id = (right.find? name).map Client.id
  listings : ∀ id recursive, (left.subClients id recursive).map (List.map Client.id) =
    (right.subClients id recursive).map (List.map Client.id)

/-- Declared nesting decides the tree; the order in which it was declared does not. -/
theorem build_mirrors (firstReachable : first.Reachable) (secondReachable : second.Reachable)
    (same : first.readBack root = second.readBack root) (firstSingle : first.SingleTop)
    (secondSingle : second.SingleTop) (rule : PromotionRule) :
    (build first rule).Mirrors (build second rule) := by
  have firstNested : first.WellNested := firstReachable.wellNested
  have secondNested : second.WellNested := secondReachable.wellNested
  obtain ⟨subtree, read⟩ := firstNested.exists_subtree firstNested.size_pos
  have alike : first.Alike second root root := ⟨subtree, read, same ▸ read⟩
  have twins := build_twins firstNested secondNested alike firstSingle secondSingle rule
  exact {
    clients := twins.imp fun _ _ twin => ⟨twin.id, twin.name, twin.parent, twin.container⟩
    roots := ids_eq (roots_twins twins)
    qualifiedNames := qualifiedName?_twins twins
    finds := fun name => map_eq_of_rel (fun _ _ twin => twin.id) (find?_twins twins name)
    listings := subClients_twins firstNested secondNested twins
  }

-- of several services next to one another, the one declared first comes first
example :
    let first := (ofRoot "A").run
      [.addNamespace 0 "B", .addInterface 0 "C", .markService 1, .markService 2]
    let second := (ofRoot "A").run
      [.addInterface 0 "C", .addNamespace 0 "B", .markService 1, .markService 2]
    (build first .allNested).clients.map Client.name = ["B", "C"] ∧
      (build second .allNested).clients.map Client.name = ["C", "B"] := by decide

/-- One service and what it holds, level by level. -/
def levelSteps : List Step :=
  [.addNamespace 0 "B", .addNamespace 1 "C", .addInterface 1 "D", .addInterface 2 "E",
    .addOperation 4 "run", .markService 1]

/-- The same, depth first and interfaces before namespaces. -/
def depthSteps : List Step :=
  [.addNamespace 0 "B", .addInterface 1 "D", .markService 1, .addNamespace 1 "C",
    .addInterface 3 "E", .addOperation 4 "run"]

/-- What both of them declare. -/
def declaredService : Subtree :=
  let inner : Subtree := ⟨"E", .interface, ["run"], false, false, [], []⟩
  let nested : Subtree := ⟨"C", .nameSpace, [], false, false, [], [inner]⟩
  let beside : Subtree := ⟨"D", .interface, [], false, false, [], []⟩
  ⟨"A", .nameSpace, [], false, false, [⟨"B", .nameSpace, [], true, false, [nested], [beside]⟩], []⟩

private theorem readBack_levelSteps :
    ((ofRoot "A").run levelSteps).readBack root = some declaredService := rfl

private theorem readBack_depthSteps :
    ((ofRoot "A").run depthSteps).readBack root = some declaredService := rfl

theorem build_mirrors_oneService :
    ((ofRoot "A").run levelSteps).Reachable ∧ ((ofRoot "A").run depthSteps).Reachable ∧
      ((ofRoot "A").run levelSteps).readBack root = ((ofRoot "A").run depthSteps).readBack root ∧
      ((ofRoot "A").run levelSteps).SingleTop ∧ ((ofRoot "A").run depthSteps).SingleTop ∧
      (build ((ofRoot "A").run levelSteps) .allNested).Mirrors
        (build ((ofRoot "A").run depthSteps) .allNested) ∧
      (build ((ofRoot "A").run levelSteps) .allNested).clients.map Client.container = [1, 2, 3, 4] ∧
      (build ((ofRoot "A").run depthSteps) .allNested).clients.map Client.container = [1, 3, 2, 4] := by
  have levelReachable : ((ofRoot "A").run levelSteps).Reachable := ⟨"A", levelSteps, rfl⟩
  have depthReachable : ((ofRoot "A").run depthSteps).Reachable := ⟨"A", depthSteps, rfl⟩
  have same : ((ofRoot "A").run levelSteps).readBack root =
      ((ofRoot "A").run depthSteps).readBack root :=
    readBack_levelSteps.trans readBack_depthSteps.symm
  have levelSingle : ((ofRoot "A").run levelSteps).SingleTop := by decide
  have depthSingle : ((ofRoot "A").run depthSteps).SingleTop := by decide
  exact ⟨levelReachable, depthReachable, same, levelSingle, depthSingle,
    build_mirrors levelReachable depthReachable same levelSingle depthSingle .allNested,
    by decide, by decide⟩

end SdkClients.ClientTree
