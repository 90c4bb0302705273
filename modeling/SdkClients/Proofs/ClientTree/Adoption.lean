import SdkClients.ClientTree.Adopt
import SdkClients.Proofs.ClientTree.Index
import SdkClients.Proofs.Fallible

set_option autoImplicit false

/-!
What adopting clients checks.

The checks go through the clients once, each against the index of those before it. Together
they say that the tree of the given clients is indexed, and nothing more: parent links may
form cycles and may contradict the nesting of the containers. The index that the pass ends
with is that of all clients.
-/

namespace SdkClients.ClientTree

variable {graph : ContainerGraph} {clients earlier rest : List Client} {position : Nat}
  {client : Client}

/-- A client passes when its id is its position, its container is in the graph, its parent is
another position of the list, and no earlier client stands for its container. -/
structure Passes (graph : ContainerGraph) (total : Nat) (earlier : List Client) (position : Nat)
    (client : Client) : Prop where
  positional : client.id = position
  placed : graph.container? client.container ≠ none
  linked : ∀ parent, client.parent = some parent → parent < total ∧ parent ≠ client.id
  fresh : ∀ other ∈ earlier, other.container ≠ client.container

/-- What makes a list of clients a tree over a graph. -/
structure Valid (graph : ContainerGraph) (clients : List Client) : Prop where
  positional : ∀ position (client : Client), clients[position]? = some client →
    client.id = position
  placed : ∀ client ∈ clients, graph.container? client.container ≠ none
  linked : ∀ client ∈ clients, ∀ parent, client.parent = some parent →
    parent < clients.length ∧ parent ≠ client.id
  distinct : clients.Pairwise fun first second => first.container ≠ second.container

private theorem container?_ne_none_iff {id : ContainerId} :
    graph.container? id ≠ none ↔ id < graph.size := by
  rw [Ne, ContainerGraph.container?, List.getElem?_eq_none_iff, Nat.not_le]
  rfl

/-! ### One client -/

private theorem get?_indexOf_eq_none_iff {container : ContainerId} :
    Keyed.get? (indexOf earlier) container = none ↔
      ∀ other ∈ earlier, other.container ≠ container := by
  rw [Keyed.get?_eq_none_iff, indexOf, List.map_map]
  simp

private theorem put_indexOf (fresh : ∀ other ∈ earlier, other.container ≠ client.container) :
    Keyed.put client.container client.id (indexOf earlier) = indexOf (earlier ++ [client]) := by
  have absent := Keyed.get?_eq_none_iff.mp (get?_indexOf_eq_none_iff.mpr fresh)
  rw [Keyed.put_of_fresh client.id absent, indexOf, indexOf, List.map_append, List.map_singleton]

theorem isNone_container? {id : ContainerId} (known : graph.container? id ≠ none) :
    (graph.container? id).isNone = false :=
  Option.isNone_eq_false_iff.mpr (Option.ne_none_iff_isSome.mp known)

theorem parent_not_dangling_iff :
    (client.parent.filter fun parent => clients.length ≤ parent ∨ parent = client.id) = none ↔
      ∀ parent, client.parent = some parent → parent < clients.length ∧ parent ≠ client.id := by
  simp [Option.filter_eq_none_iff, not_or]

theorem enter_of_passes (passes : Passes graph clients.length earlier position client) :
    enter graph clients (indexOf earlier) position client = .ok (indexOf (earlier ++ [client])) := by
  rw [enter, if_neg (not_not_intro passes.positional), isNone_container? passes.placed,
    if_neg Bool.false_ne_true, parent_not_dangling_iff.mpr passes.linked]
  simp only [get?_indexOf_eq_none_iff.mpr passes.fresh, put_indexOf passes.fresh]

private theorem passes_of_enter {next : List (ContainerId × ClientId)}
    (entered : enter graph clients (indexOf earlier) position client = .ok next) :
    Passes graph clients.length earlier position client := by
  unfold enter at entered
  split at entered
  · cases entered
  · next positional =>
      split at entered
      · cases entered
      · next known =>
          split at entered
          · cases entered
          · next linked =>
              split at entered
              · next fresh =>
                  exact ⟨Classical.not_not.mp positional, by simpa using known,
                    parent_not_dangling_iff.mp linked, get?_indexOf_eq_none_iff.mp fresh⟩
              · split at entered <;> cases entered

theorem enter_eq_ok_iff {next : List (ContainerId × ClientId)} :
    enter graph clients (indexOf earlier) position client = .ok next ↔
      Passes graph clients.length earlier position client ∧ next = indexOf (earlier ++ [client]) := by
  constructor
  · intro entered
    have passes := passes_of_enter entered
    exact ⟨passes, (Except.ok.inj ((enter_of_passes passes).symm.trans entered)).symm⟩
  · rintro ⟨passes, rfl⟩
    exact enter_of_passes passes

/-! ### The whole list -/

theorem enterFrom_eq_ok_iff {index : List (ContainerId × ClientId)} :
    enterFrom graph clients (indexOf earlier) position rest = .ok index ↔
      (∀ place client, rest[place]? = some client →
        Passes graph clients.length (earlier ++ rest.take place) (position + place) client) ∧
      index = indexOf (earlier ++ rest) := by
  induction rest generalizing earlier position with
  | nil => simp [enterFrom, eq_comm]
  | cons head rest ih =>
      have chain : enterFrom graph clients (indexOf earlier) position (head :: rest) = .ok index ↔
          Passes graph clients.length earlier position head ∧
            enterFrom graph clients (indexOf (earlier ++ [head])) (position + 1) rest =
              .ok index := by
        rw [enterFrom, bind_eq_ok_iff]
        simp only [enter_eq_ok_iff, and_assoc, exists_and_left, exists_eq_left]
      rw [chain, ih, List.append_assoc, List.singleton_append, ← and_assoc]
      refine and_congr_left fun _ => ?_
      constructor
      · rintro ⟨first, others⟩ place client located
        cases place with
        | zero =>
            obtain rfl := Option.some.inj located
            simpa using first
        | succ place => simpa [Nat.add_assoc, Nat.add_comm 1] using others place client located
      · intro each
        refine ⟨by simpa using each 0 head rfl, fun place client located => ?_⟩
        simpa [Nat.add_assoc, Nat.add_comm 1] using each (place + 1) client located

theorem mem_take_iff {earlierClient : Client} :
    earlierClient ∈ clients.take position ↔
      ∃ place, place < position ∧ clients[place]? = some earlierClient := by
  rw [List.mem_iff_getElem?]
  refine exists_congr fun place => ?_
  rw [List.getElem?_take]
  by_cases before : place < position
  · simp only [before, if_true, true_and]
  · simp only [before, if_false, reduceCtorEq, false_and]

theorem pairwise_of_passes {total : Nat} (passes : ∀ place client, clients[place]? = some client →
    Passes graph total (clients.take place) place client) :
    clients.Pairwise fun first second => first.container ≠ second.container := by
  refine List.pairwise_iff_getElem.mpr fun first second insideFirst insideSecond before => ?_
  have located : clients[second]? = some clients[second] := List.getElem?_eq_getElem insideSecond
  have found : clients[first]? = some clients[first] := List.getElem?_eq_getElem insideFirst
  exact (passes second _ located).fresh _ (mem_take_iff.mpr ⟨first, before, found⟩)

private theorem valid_iff_passes :
    Valid graph clients ↔ ∀ place client, clients[place]? = some client →
      Passes graph clients.length (clients.take place) place client := by
  constructor
  · intro valid place client located
    have member : client ∈ clients := List.mem_of_getElem? located
    refine ⟨valid.positional place client located, valid.placed client member,
      valid.linked client member, fun other inFront => ?_⟩
    obtain ⟨before, smaller, found⟩ := mem_take_iff.mp inFront
    obtain ⟨inside, rfl⟩ := List.getElem?_eq_some_iff.mp located
    obtain ⟨insideToo, rfl⟩ := List.getElem?_eq_some_iff.mp found
    exact List.pairwise_iff_getElem.mp valid.distinct before place insideToo inside smaller
  · intro passes
    refine ⟨fun place client located => (passes place client located).positional, ?_, ?_,
      pairwise_of_passes passes⟩
    · intro client member
      obtain ⟨place, located⟩ := List.mem_iff_getElem?.mp member
      exact (passes place client located).placed
    · intro client member
      obtain ⟨place, located⟩ := List.mem_iff_getElem?.mp member
      exact (passes place client located).linked

theorem valid_iff_indexed {rule : PromotionRule} :
    Valid graph clients ↔ (⟨graph, rule, clients, indexOf clients⟩ : ClientTree).Indexed := by
  constructor
  · intro valid
    refine ⟨?_, ?_, fun client member => container?_ne_none_iff.mp (valid.placed client member),
      valid.linked, rfl⟩
    · refine List.ext_getElem? fun position => ?_
      rw [List.getElem?_map]
      cases located : clients[position]? with
      | none =>
          have outside : clients.length ≤ position := List.getElem?_eq_none_iff.mp located
          exact (List.getElem?_eq_none_iff.mpr
            (Nat.le_trans (Nat.le_of_eq List.length_range) outside)).symm
      | some client =>
          have inside : position < clients.length := (List.getElem?_eq_some_iff.mp located).1
          rw [size, List.getElem?_range inside, Option.map_some,
            valid.positional position client located]
    · exact List.pairwise_map.mpr valid.distinct
  · intro indexed
    refine ⟨?_, fun client member => container?_ne_none_iff.mpr (indexed.placed client member),
      indexed.linked, List.pairwise_map.mp indexed.distinct⟩
    intro position client located
    exact (indexed.client?_iff.mp located).2

/-! ### Adoption -/

private theorem enterFrom_nil_ne_outOfRange (graph : ContainerGraph) (clients : List Client)
    (id : ClientId) : enterFrom graph clients [] 0 clients ≠ .error (.outOfRange id) := by
  have empty : Leads [] clients.length := by rintro _ _ ⟨⟩
  exact enterFrom_ne_outOfRange empty (Nat.le_of_eq (Nat.zero_add _)) id

/-- The pass never finds a position in the index that the list does not have, so it stops only at a
client that is refused. -/
theorem enterFrom_eq_adopt (graph : ContainerGraph) (rule : PromotionRule) (clients : List Client) :
    enterFrom graph clients [] 0 clients =
      ((adopt graph rule clients).map byContainer).mapError .refused := by
  unfold adopt
  split
  · next index passed => exact passed
  · next reason refused => exact refused
  · next id outside => exact absurd outside (enterFrom_nil_ne_outOfRange graph clients id)

private theorem adopt_eq_ok_iff_enterFrom {rule : PromotionRule} {tree : ClientTree} :
    adopt graph rule clients = .ok tree ↔ ∃ index,
      enterFrom graph clients [] 0 clients = .ok index ∧ tree = ⟨graph, rule, clients, index⟩ := by
  unfold adopt
  split
  · next index passed => simp [passed, eq_comm]
  · next reason refused => simp [refused]
  · next id outside => exact absurd outside (enterFrom_nil_ne_outOfRange graph clients id)

/-- Adopting clients succeeds exactly when they make an indexed tree, and changes nothing. -/
theorem adopt_eq_ok_iff {rule : PromotionRule} {tree : ClientTree} :
    adopt graph rule clients = .ok tree ↔
      tree = ⟨graph, rule, clients, indexOf clients⟩ ∧ tree.Indexed := by
  have entered : ∀ index, enterFrom graph clients [] 0 clients = .ok index ↔
      (⟨graph, rule, clients, indexOf clients⟩ : ClientTree).Indexed ∧
        index = indexOf clients := by
    intro index
    rw [← indexOf_nil, enterFrom_eq_ok_iff, ← valid_iff_indexed, valid_iff_passes]
    simp only [List.nil_append, Nat.zero_add]
  rw [adopt_eq_ok_iff_enterFrom]
  simp only [entered]
  constructor
  · rintro ⟨_, ⟨indexed, rfl⟩, rfl⟩
    exact ⟨rfl, indexed⟩
  · rintro ⟨rfl, indexed⟩
    exact ⟨_, ⟨indexed, rfl⟩, rfl⟩

end SdkClients.ClientTree
