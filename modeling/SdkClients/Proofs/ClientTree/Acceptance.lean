import SdkClients.Proofs.ClientTree.Adoption

set_option autoImplicit false

/-!
Which lists of clients are adopted, and what is said against the others.

A list is valid if ids are positions, containers are in the graph and stand behind one client each,
and parents are other clients of the list. Adoption accepts exactly the valid lists and otherwise names
the first client at fault. It looks at each client once, with an index from containers to the ids that
were met: an id in the index is the position of an earlier client, so looking it up never fails.
-/

namespace SdkClients.ClientTree

variable {graph : ContainerGraph} {clients : List Client}

/-- What is said against the client at a position, the first objection first. -/
inductive Offends (graph : ContainerGraph) (clients : List Client) (position : Nat)
    (client : Client) : AdoptionError → Prop
  | idMismatch : client.id ≠ position →
      Offends graph clients position client (.idMismatch position client.id)
  | unknownContainer : client.id = position → graph.container? client.container = none →
      Offends graph clients position client (.unknownContainer client.name client.container)
  | danglingParent {parent : ClientId} : client.id = position →
      graph.container? client.container ≠ none → client.parent = some parent →
      (clients.length ≤ parent ∨ parent = client.id) →
      Offends graph clients position client (.danglingParent client.name parent)
  | duplicateClient {earlier : Nat} {first : Client} : client.id = position →
      graph.container? client.container ≠ none →
      (∀ parent, client.parent = some parent → parent < clients.length ∧ parent ≠ client.id) →
      earlier < position → clients[earlier]? = some first → first.container = client.container →
      Offends graph clients position client
        (.duplicateClient client.container first.name client.name)

/-! ### One client -/

private theorem passes_iff_not_offends {position : Nat} {client : Client} :
    Passes graph clients.length (clients.take position) position client ↔
      ∀ reason, ¬ Offends graph clients position client reason := by
  constructor
  · intro passes reason offends
    cases offends with
    | idMismatch mismatch => exact mismatch passes.positional
    | unknownContainer _ unknown => exact passes.placed unknown
    | danglingParent _ _ link dangling =>
        obtain ⟨inRange, other⟩ := passes.linked _ link
        exact dangling.elim (Nat.not_le.mpr inRange) other
    | duplicateClient _ _ _ before located same =>
        exact passes.fresh _ (mem_take_iff.mpr ⟨_, before, located⟩) same
  · intro blameless
    have positional : client.id = position :=
      Classical.byContradiction fun mismatch => blameless _ (.idMismatch mismatch)
    have placed : graph.container? client.container ≠ none :=
      fun unknown => blameless _ (.unknownContainer positional unknown)
    have linked : ∀ parent, client.parent = some parent →
        parent < clients.length ∧ parent ≠ client.id := by
      intro parent link
      refine ⟨Nat.lt_of_not_le fun outside => ?_, fun own => ?_⟩
      · exact blameless _ (.danglingParent positional placed link (.inl outside))
      · exact blameless _ (.danglingParent positional placed link (.inr own))
    refine ⟨positional, placed, linked, ?_⟩
    intro first inFront same
    obtain ⟨earlier, before, located⟩ := mem_take_iff.mp inFront
    exact blameless _ (.duplicateClient positional placed linked before located same)

/-- The clients in front of a position have passed. -/
def PassedBefore (graph : ContainerGraph) (clients : List Client) (position : Nat) : Prop :=
  ∀ place client, (clients.take position)[place]? = some client →
    Passes graph clients.length ((clients.take position).take place) place client

/-- What the index has for the container of an earlier client is the position of that client. -/
private theorem PassedBefore.get?_indexOf {position : Nat}
    (passed : PassedBefore graph clients position)
    {first : Client} (inFront : first ∈ clients.take position) :
    Keyed.get? (indexOf (clients.take position)) first.container = some first.id := by
  have distinct : Keyed.Distinct (indexOf (clients.take position)) :=
    distinct_indexOf_iff.mpr (List.pairwise_map.mpr (pairwise_of_passes passed))
  exact (Keyed.get?_iff_of_distinct distinct).mpr (List.mem_map.mpr ⟨first, inFront, rfl⟩)

private theorem PassedBefore.getElem?_id {position : Nat}
    (passed : PassedBefore graph clients position)
    {first : Client} (inFront : first ∈ clients.take position) :
    clients[first.id]? = some first := by
  obtain ⟨place, taken⟩ := List.mem_iff_getElem?.mp inFront
  rw [(passed place first taken).positional]
  rw [List.getElem?_take] at taken
  split at taken
  · exact taken
  · cases taken

private theorem enter_of_offends {position : Nat} {client : Client} {reason : AdoptionError}
    (passed : PassedBefore graph clients position)
    (offends : Offends graph clients position client reason) :
    enter graph clients (indexOf (clients.take position)) position client =
      .error (.refused reason) := by
  cases offends with
  | idMismatch mismatch => rw [enter, if_pos mismatch]
  | unknownContainer own unknown =>
      rw [enter, if_neg (not_not_intro own), if_pos (Option.isNone_iff_eq_none.mpr unknown)]
  | @danglingParent parent own known link dangling =>
      have kept : (client.parent.filter fun parent =>
          clients.length ≤ parent ∨ parent = client.id) = some parent := by
        simp [link, Option.filter_some, dangling]
      rw [enter, if_neg (not_not_intro own), isNone_container? known,
        if_neg Bool.false_ne_true, kept]
  | @duplicateClient earlier first own known linked before located same =>
      have inFront : first ∈ clients.take position := mem_take_iff.mpr ⟨earlier, before, located⟩
      have listed := passed.get?_indexOf inFront
      rw [same] at listed
      rw [enter, if_neg (not_not_intro own), isNone_container? known,
        if_neg Bool.false_ne_true, parent_not_dangling_iff.mpr linked]
      simp only [listed, passed.getElem?_id inFront]

private theorem enter_eq_error_iff {position : Nat} {client : Client} {reason : AdoptionError}
    (passed : PassedBefore graph clients position) :
    enter graph clients (indexOf (clients.take position)) position client =
        .error (.refused reason) ↔ Offends graph clients position client reason := by
  refine ⟨fun refused => ?_, enter_of_offends passed⟩
  have blamed : ∃ other, Offends graph clients position client other := by
    refine Classical.byContradiction fun blameless => ?_
    have passes := passes_iff_not_offends.mpr (not_exists.mp blameless)
    rw [enter_of_passes passes] at refused
    cases refused
  obtain ⟨other, offends⟩ := blamed
  obtain ⟨⟩ := refused.symm.trans (enter_of_offends passed offends)
  exact offends

/-! ### The whole list -/

private theorem exists_split_of_getElem? {position : Nat} {client : Client}
    (located : clients[position]? = some client) :
    ∃ before after, clients = before ++ client :: after ∧ before.length = position := by
  obtain ⟨inside, rfl⟩ := List.getElem?_eq_some_iff.mp located
  refine ⟨clients.take position, clients.drop (position + 1), ?_,
    List.length_take_of_le (Nat.le_of_lt inside)⟩
  rw [← List.drop_eq_getElem_cons inside, List.take_append_drop]

private theorem enterFrom_eq_error_iff {earlier rest : List Client} {position : Nat} {halt : Halt} :
    enterFrom graph clients (indexOf earlier) position rest = .error halt ↔
      ∃ before client after, rest = before ++ client :: after ∧
        enterFrom graph clients (indexOf earlier) position before =
          .ok (indexOf (earlier ++ before)) ∧
        enter graph clients (indexOf (earlier ++ before)) (position + before.length) client =
          .error halt := by
  induction rest generalizing earlier position with
  | nil => simp [enterFrom]
  | cons head rest ih =>
      rw [enterFrom]
      cases entered : enter graph clients (indexOf earlier) position head with
      | error other =>
          rw [error_bind]
          constructor
          · rintro ⟨⟩
            exact ⟨[], head, rest, rfl, by simp [enterFrom], by simpa using entered⟩
          · rintro ⟨before, client, after, split, passed, refused⟩
            cases before with
            | nil =>
                obtain ⟨rfl, rfl⟩ := List.cons.inj split
                rw [← entered]
                simpa using refused
            | cons first before =>
                obtain ⟨rfl, -⟩ := List.cons.inj split
                rw [enterFrom, entered] at passed
                cases passed
      | ok next =>
          obtain ⟨-, rfl⟩ := enter_eq_ok_iff.mp entered
          rw [ok_bind, ih]
          constructor
          · rintro ⟨before, client, after, rfl, passed, refused⟩
            refine ⟨head :: before, client, after, rfl, ?_, ?_⟩
            · rw [enterFrom, entered, ok_bind, passed, List.append_assoc, List.singleton_append]
            · simpa [Nat.add_assoc, Nat.add_comm 1] using refused
          · rintro ⟨before, client, after, split, passed, refused⟩
            cases before with
            | nil =>
                obtain ⟨rfl, -⟩ := List.cons.inj split
                rw [List.append_nil, List.length_nil, Nat.add_zero, entered] at refused
                cases refused
            | cons first before =>
                obtain ⟨rfl, rfl⟩ := List.cons.inj split
                rw [enterFrom, entered, ok_bind] at passed
                refine ⟨before, client, after, rfl, ?_, ?_⟩
                · rw [passed, List.append_assoc, List.singleton_append]
                · simpa [Nat.add_assoc, Nat.add_comm 1] using refused

private theorem passedBefore_iff {position : Nat} :
    PassedBefore graph clients position ↔
      ∀ earlier other, earlier < position → clients[earlier]? = some other →
        ∀ objection, ¬ Offends graph clients earlier other objection := by
  refine forall_congr' fun earlier => forall_congr' fun other => ?_
  rw [← passes_iff_not_offends, List.getElem?_take, List.take_take]
  by_cases inFront : earlier < position
  · rw [if_pos inFront, Nat.min_eq_left (Nat.le_of_lt inFront)]
    simp only [inFront, true_implies]
  · simp only [inFront, if_false, reduceCtorEq, false_implies]

private theorem enterFrom_take_iff {position : Nat} :
    enterFrom graph clients [] 0 (clients.take position) =
        .ok (indexOf (clients.take position)) ↔ PassedBefore graph clients position := by
  rw [← indexOf_nil, enterFrom_eq_ok_iff, PassedBefore]
  simp only [List.nil_append, Nat.zero_add, and_true]

private theorem adopt_eq_error_iff_enterFrom {rule : PromotionRule} {reason : AdoptionError} :
    adopt graph rule clients = .error reason ↔
      enterFrom graph clients [] 0 clients = .error (.refused reason) := by
  rw [enterFrom_eq_adopt graph rule]
  cases adopt graph rule clients <;> simp [Except.map, Except.mapError]

private theorem adopt_eq_error_iff {rule : PromotionRule} {reason : AdoptionError} :
    adopt graph rule clients = .error reason ↔
      ∃ position client, clients[position]? = some client ∧
        (∀ earlier other, earlier < position → clients[earlier]? = some other →
          ∀ objection, ¬ Offends graph clients earlier other objection) ∧
        Offends graph clients position client reason := by
  rw [adopt_eq_error_iff_enterFrom, ← indexOf_nil, enterFrom_eq_error_iff]
  simp only [List.nil_append, Nat.zero_add, ← passedBefore_iff]
  constructor
  · rintro ⟨before, client, after, split, passed, refused⟩
    have located : clients[before.length]? = some client := by simp [split]
    have front : clients.take before.length = before := by rw [split, List.take_left]
    have ahead : PassedBefore graph clients before.length :=
      enterFrom_take_iff.mp (by rwa [front])
    refine ⟨before.length, client, located, ahead, (enter_eq_error_iff ahead).mp ?_⟩
    rwa [front]
  · rintro ⟨position, client, located, ahead, offends⟩
    obtain ⟨before, after, split, rfl⟩ := exists_split_of_getElem? located
    have front : clients.take before.length = before := by rw [split, List.take_left]
    have passed := enterFrom_take_iff.mpr ahead
    have refused := (enter_eq_error_iff ahead).mpr offends
    rw [front] at passed refused
    exact ⟨before, client, after, split, passed, refused⟩

/-! ### Adoption -/

/-- What adopting a list of clients gives. -/
structure AdoptsValid (graph : ContainerGraph) (rule : PromotionRule) (clients : List Client) :
    Prop where
  /-- Valid lists become trees and stay as they are; the index has their ids under their
  containers. -/
  accepted : ∀ tree, adopt graph rule clients = .ok tree ↔
    Valid graph clients ∧ tree = ⟨graph, rule, clients, indexOf clients⟩
  /-- The client of a container is the only one that there is. -/
  found : ∀ tree, adopt graph rule clients = .ok tree → ∀ container,
    (∀ client, tree.clientFor? container = some client ↔
      client ∈ clients ∧ client.container = container) ∧
    (tree.clientFor? container = none ↔ ∀ client ∈ clients, client.container ≠ container)
  /-- Other lists are refused for the first client at fault. -/
  refused : ∀ reason, adopt graph rule clients = .error reason ↔
    ∃ position client, clients[position]? = some client ∧
      (∀ earlier other, earlier < position → clients[earlier]? = some other →
        ∀ objection, ¬ Offends graph clients earlier other objection) ∧
      Offends graph clients position client reason
  /-- The pass with an index always finds the client that the index names. -/
  indexed : enterFrom graph clients [] 0 clients =
    ((adopt graph rule clients).map byContainer).mapError .refused
  /-- What the index of the tree has for a container is the position of its client. -/
  lookedUp : ∀ tree, adopt graph rule clients = .ok tree → ∀ container id,
    Keyed.get? tree.byContainer container = some id ↔
      ∃ client, tree.client? id = some client ∧ client.container = container

theorem adopt_exact (graph : ContainerGraph) (rule : PromotionRule) (clients : List Client) :
    AdoptsValid graph rule clients where
  accepted := by
    intro tree
    rw [adopt_eq_ok_iff]
    constructor
    · rintro ⟨rfl, indexed⟩
      exact ⟨valid_iff_indexed.mpr indexed, rfl⟩
    · rintro ⟨valid, rfl⟩
      exact ⟨rfl, valid_iff_indexed.mp valid⟩
  found := by
    intro tree accepted container
    obtain ⟨rfl, indexed⟩ := adopt_eq_ok_iff.mp accepted
    refine ⟨fun client => indexed.clientFor?_iff, ?_⟩
    rw [Option.eq_none_iff_forall_ne_some]
    simp only [ne_eq, indexed.clientFor?_iff, not_and]
  refused := fun reason => adopt_eq_error_iff
  indexed := enterFrom_eq_adopt graph rule clients
  lookedUp := by
    intro tree accepted container id
    obtain ⟨-, indexed⟩ := adopt_eq_ok_iff.mp accepted
    exact indexed.get?_iff_client?

end SdkClients.ClientTree
