import SdkClients.Proofs.ClientTree.Listing
import SdkClients.Proofs.ClientTree.Made
import SdkClients.Proofs.Levels

set_option autoImplicit false

/-!
Listings level by level, with their errors.

The levels below a client are found without a queue: a level lists the direct sub-clients of
the level above it, one client after the other. The recursive listing is the levels put
together. If some client cannot be listed, it ends with the error of the first such client on
the way down, and so does the listing of one client at the first nested container that is at
fault.
-/

namespace SdkClients.ClientTree

open ContainerGraph

variable {tree : ClientTree}

/-! ### One client -/

/-- Why the listing of a client ends at a nested container. -/
inductive StopsAt (tree : ClientTree) (client : Client) (child : ContainerId) :
    ListingError → Prop
  | mismatch {sub : Client} : tree.clientFor? child = some sub → sub.parent ≠ some client.id →
      StopsAt tree client child (.parentMismatch sub.name client.name)
  | missing {container : Container} : tree.graph.container? child = some container →
      tree.clientFor? child = none → tree.rule.qualifies container = true →
      StopsAt tree client child (.missingClient container.name)

private theorem stopsAt_client_iff {client sub : Client} {child : ContainerId}
    {failure : ListingError}
    (located : tree.clientFor? child = some sub) :
    tree.StopsAt client child failure ↔
      sub.parent ≠ some client.id ∧ failure = .parentMismatch sub.name client.name := by
  constructor
  · intro stops
    cases stops with
    | mismatch here elsewhere =>
        rw [located, Option.some.injEq] at here
        subst here
        exact ⟨elsewhere, rfl⟩
    | missing _ absent _ =>
        rw [located] at absent
        cases absent
  · rintro ⟨elsewhere, rfl⟩
    exact .mismatch located elsewhere

private theorem stopsAt_missing_iff {client : Client} {child : ContainerId} {container : Container}
    {failure : ListingError} (found : tree.graph.container? child = some container)
    (absent : tree.clientFor? child = none) :
    tree.StopsAt client child failure ↔
      tree.rule.qualifies container = true ∧ failure = .missingClient container.name := by
  constructor
  · intro stops
    cases stops with
    | mismatch here _ =>
        rw [absent] at here
        cases here
    | missing here _ qualifies =>
        rw [found, Option.some.injEq] at here
        subst here
        exact ⟨qualifies, rfl⟩
  · rintro ⟨qualifies, rfl⟩
    exact .missing found absent qualifies

theorem subClient_eq_error_iff {client : Client} {child : ContainerId} {failure : ListingError}
    (present : child < tree.graph.size) :
    tree.subClient client child = .error failure ↔ tree.StopsAt client child failure := by
  obtain ⟨container, found⟩ := exists_container_of_lt present
  unfold subClient
  cases located : tree.clientFor? child with
  | none =>
      rw [stopsAt_missing_iff found located]
      by_cases qualifies : tree.rule.qualifies container = true
      · simp [found, qualifies, eq_comm]
      · simp [found, qualifies]
  | some sub =>
      rw [stopsAt_client_iff located]
      by_cases link : sub.parent = some client.id
      · simp [found, link]
      · simp [found, link, eq_comm]

private theorem exists_subClient_iff {client : Client} {child : ContainerId}
    (present : child < tree.graph.size) :
    (∃ sub, tree.subClient client child = .ok sub) ↔
      ∀ reason, ¬ tree.StopsAt client child reason := by
  simp only [← subClient_eq_error_iff present]
  cases tree.subClient client child <;> simp

theorem subClientsOf_eq_mapM (client : Client) (ids : List ContainerId) :
    tree.subClientsOf client ids =
      (ids.mapM (tree.subClient client)).map fun subs => subs.flatMap Option.toList := by
  induction ids with
  | nil => rfl
  | cons child ids ih =>
      rw [subClientsOf, ih, List.mapM_cons]
      cases tree.subClient client child with
      | error failure => rfl
      | ok sub => cases ids.mapM (tree.subClient client) <;> rfl

theorem directSubClients_of_container {client : Client} {container : Container}
    (found : tree.graph.container? client.container = some container) :
    tree.directSubClients client = tree.subClientsOf client container.children := by
  unfold directSubClients
  rw [found]

/-- A listing without errors gives the clients of the nested containers, whether the rule asks
for them or not. -/
private theorem directSubClients_eq_ok_iff_stops (nested : tree.graph.WellNested) {client : Client}
    {container : Container} (found : tree.graph.container? client.container = some container)
    {listed : List Client} :
    tree.directSubClients client = .ok listed ↔
      (∀ child ∈ container.children, ∀ reason, ¬ tree.StopsAt client child reason) ∧
        listed = container.children.filterMap tree.clientFor? := by
  have present : ∀ child ∈ container.children, child < tree.graph.size :=
    fun child member => nested.inner_lt_size ⟨container, found, member⟩
  rw [directSubClients_of_container found, subClientsOf_eq_ok_iff]
  refine and_congr_left fun _ => forall₂_congr fun child member => ?_
  rw [← exists_subClient_iff (present child member)]
  simp only [subClient_eq_ok_iff, exists_and_left, exists_eq, and_true]

theorem directSubClients_eq_error_iff (nested : tree.graph.WellNested) {client : Client}
    {container : Container} (found : tree.graph.container? client.container = some container)
    {failure : ListingError} :
    tree.directSubClients client = .error failure ↔
      ∃ before child after, container.children = before ++ child :: after ∧
        (∀ earlier ∈ before, ∀ reason, ¬ tree.StopsAt client earlier reason) ∧
        tree.StopsAt client child failure := by
  have present : ∀ child ∈ container.children, child < tree.graph.size :=
    fun child member => nested.inner_lt_size ⟨container, found, member⟩
  rw [directSubClients_of_container found, subClientsOf_eq_mapM, map_eq_error_iff,
    mapM_eq_error_iff]
  refine exists_congr fun before => exists_congr fun child => exists_congr fun after => ?_
  refine and_congr_right fun split => ?_
  rw [split] at present
  obtain ⟨presentBefore, presentRest⟩ := List.forall_mem_append.mp present
  rw [subClient_eq_error_iff (presentRest child List.mem_cons_self)]
  refine and_congr_left fun _ => forall₂_congr fun earlier member => ?_
  exact exists_subClient_iff (presentBefore earlier member)

/-! ### Levels -/

/-- The direct sub-clients of some clients, one client after the other. -/
def subClientsOfAll (tree : ClientTree) (clients : List Client) :
    Except ListingError (List Client) :=
  (clients.mapM fun client => tree.subClients client.id false).map List.flatten

/-- The clients a number of levels below some clients, which are level zero themselves. -/
def level (tree : ClientTree) (starts : List Client) : Nat → Except ListingError (List Client)
  | 0 => .ok starts
  | depth + 1 => tree.level starts depth >>= tree.subClientsOfAll

private theorem level_succ (starts : List Client) (depth : Nat) :
    tree.level starts (depth + 1) =
      tree.subClientsOfAll starts >>= fun next => tree.level next depth := by
  induction depth with
  | zero => cases first : tree.subClientsOfAll starts <;> simp [level, first]
  | succ depth ih =>
      rw [level, ih]
      cases tree.subClientsOfAll starts <;> rfl

private theorem level_succ_of_ok {starts next : List Client}
    (made : tree.subClientsOfAll starts = .ok next)
    (depth : Nat) : tree.level starts (depth + 1) = tree.level next depth := by
  rw [level_succ, made, ok_bind]

theorem subClients_false (indexed : tree.Indexed) {client : Client}
    (member : client ∈ tree.clients) :
    tree.subClients client.id false = tree.directSubClients client := by
  simp only [subClients, indexed.client?_id member, Bool.false_eq_true, if_false]

private theorem subClientsOfAll_cons (indexed : tree.Indexed) {head : Client} {tail : List Client}
    (member : head ∈ tree.clients) :
    tree.subClientsOfAll (head :: tail) = (do
      let first ← tree.directSubClients head
      let others ← tree.subClientsOfAll tail
      return first ++ others) := by
  unfold subClientsOfAll
  rw [List.mapM_cons, subClients_false indexed member]
  cases tree.directSubClients head with
  | error failure => rfl
  | ok first => cases tail.mapM fun client => tree.subClients client.id false <;> rfl

private theorem level_one (client : Client) :
    tree.level [client] 1 = tree.subClients client.id false := by
  rw [level_succ]
  unfold subClientsOfAll
  rw [List.mapM_cons, List.mapM_nil]
  cases tree.subClients client.id false with
  | error failure => rfl
  | ok listed => exact congrArg Except.ok (List.append_nil listed)

/-- A level of clients that can all be listed leads to what a sweep finds below them. -/
private theorem flatMap_of_subClientsOfAll (indexed : tree.Indexed) {starts next : List Client}
    (members : ∀ client ∈ starts, client ∈ tree.clients)
    (made : tree.subClientsOfAll starts = .ok next) :
    next = starts.flatMap tree.clientsInside := by
  induction starts generalizing next with
  | nil => exact (Except.ok.inj made).symm
  | cons head tail ih =>
      obtain ⟨memberHead, memberTail⟩ := List.forall_mem_cons.mp members
      rw [subClientsOfAll_cons indexed memberHead] at made
      simp only [bind_eq_ok_iff, pure_eq_ok_iff] at made
      obtain ⟨first, direct, others, later, rfl⟩ := made
      rw [List.flatMap_cons, (directSubClients_eq_ok_iff.mp direct).2, ih memberTail later]

private theorem mem_clients_of_flatMap (indexed : tree.Indexed) {starts : List Client} :
    ∀ sub ∈ starts.flatMap tree.clientsInside, sub ∈ tree.clients := by
  intro sub inside
  obtain ⟨client, -, nested⟩ := List.mem_flatMap.mp inside
  exact ((mem_clientsInside_iff indexed).mp nested).1

private theorem level_members (indexed : tree.Indexed) {starts : List Client}
    (members : ∀ client ∈ starts, client ∈ tree.clients) {depth : Nat} {reached : List Client}
    (made : tree.level starts depth = .ok reached) : ∀ client ∈ reached, client ∈ tree.clients := by
  induction depth generalizing reached with
  | zero =>
      cases made
      exact members
  | succ depth ih =>
      rw [level, bind_eq_ok_iff] at made
      obtain ⟨above, known, next⟩ := made
      rw [flatMap_of_subClientsOfAll indexed (ih known) next]
      exact mem_clients_of_flatMap indexed

/-! ### The queue -/

/-- Clients at the head of a queue are listed as a level, and what they list goes behind the
rest of the queue. -/
private theorem listFrom_append (indexed : tree.Indexed) (fuel : Nat) (first second : List Client)
    (members : ∀ client ∈ first, client ∈ tree.clients) :
    tree.listFrom (fuel + first.length) (first ++ second) = (do
      let next ← tree.subClientsOfAll first
      let later ← tree.listFrom fuel (second ++ next)
      return next ++ later) := by
  induction first generalizing second with
  | nil =>
      change tree.listFrom fuel second = tree.listFrom fuel (second ++ []) >>= pure
      rw [List.append_nil]
      cases tree.listFrom fuel second <;> rfl
  | cons head first ih =>
      obtain ⟨memberHead, memberTail⟩ := List.forall_mem_cons.mp members
      rw [List.length_cons, ← Nat.add_assoc, List.cons_append, listFrom,
        subClientsOfAll_cons indexed memberHead]
      cases tree.directSubClients head with
      | error failure => rfl
      | ok direct =>
          rw [ok_bind, List.append_assoc, ih (second ++ direct) memberTail]
          cases tree.subClientsOfAll first with
          | error failure => rfl
          | ok next =>
              simp only [ok_bind, pure, Except.pure, List.append_assoc]
              cases tree.listFrom fuel (second ++ (direct ++ next)) <;> rfl

/-- A queue with fuel enough for everything below it: it consists of clients of the tree. -/
structure Pending (tree : ClientTree) (fuel : Nat) (queue : List Client) : Prop where
  members : ∀ client ∈ queue, client ∈ tree.clients
  settled : Settled tree.clientsInside fuel queue

/-- One level is taken off the queue at a time. -/
private theorem Pending.split (indexed : tree.Indexed) {fuel : Nat} {queue : List Client}
    (pending : tree.Pending fuel queue) :
    ∃ rest, fuel = rest + queue.length ∧
      tree.listFrom fuel queue = (do
        let next ← tree.subClientsOfAll queue
        let later ← tree.listFrom rest next
        return next ++ later) ∧
      ∀ next, tree.subClientsOfAll queue = .ok next → tree.Pending rest next := by
  obtain ⟨rest, rfl, settled, -⟩ := pending.settled.split
  refine ⟨rest, rfl, ?_, ?_⟩
  · have taken := listFrom_append indexed rest queue [] pending.members
    rw [List.append_nil] at taken
    exact taken
  · intro next made
    rw [flatMap_of_subClientsOfAll indexed pending.members made]
    exact ⟨mem_clients_of_flatMap indexed, settled⟩

private theorem Pending.listFrom_of_levels (indexed : tree.Indexed) {fuel : Nat}
    {queue : List Client}
    (pending : tree.Pending fuel queue) {levels : List (List Client)}
    (made : ∀ depth, tree.level queue (depth + 1) = .ok (levels.getD depth [])) :
    tree.listFrom fuel queue = .ok levels.flatten := by
  induction levels generalizing fuel queue with
  | nil =>
      obtain ⟨rest, -, taken, -⟩ := pending.split indexed
      have none : tree.subClientsOfAll queue = .ok [] := made 0
      rw [taken, none, ok_bind]
      cases rest <;> rfl
  | cons next levels ih =>
      obtain ⟨rest, -, taken, later⟩ := pending.split indexed
      have first : tree.subClientsOfAll queue = .ok next := made 0
      have below : ∀ depth, tree.level next (depth + 1) = .ok (levels.getD depth []) := by
        intro depth
        rw [← level_succ_of_ok first, made (depth + 1), List.getD_cons_succ]
      rw [taken, first, ok_bind, ih (later next first) below, ok_bind]
      rfl

private theorem Pending.listFrom_of_error (indexed : tree.Indexed) {fuel : Nat}
    {queue : List Client}
    (pending : tree.Pending fuel queue) {depth : Nat} {failure : ListingError}
    (failed : tree.level queue (depth + 1) = .error failure) :
    tree.listFrom fuel queue = .error failure := by
  induction depth generalizing fuel queue with
  | zero =>
      obtain ⟨rest, -, taken, -⟩ := pending.split indexed
      have first : tree.subClientsOfAll queue = .error failure := failed
      rw [taken, first]
      rfl
  | succ depth ih =>
      obtain ⟨rest, -, taken, later⟩ := pending.split indexed
      rw [level_succ] at failed
      cases first : tree.subClientsOfAll queue with
      | error reason =>
          rw [first] at failed
          cases failed
          rw [taken, first]
          rfl
      | ok next =>
          rw [first, ok_bind] at failed
          rw [taken, first, ok_bind, ih (later next first) failed]
          rfl

/-- The way down ends: with a level that is empty and stays so, or with an error. -/
private theorem Pending.exists_levels (indexed : tree.Indexed) {fuel : Nat} {queue : List Client}
    (pending : tree.Pending fuel queue) :
    (∃ levels : List (List Client),
        ∀ depth, tree.level queue (depth + 1) = .ok (levels.getD depth [])) ∨
      ∃ depth failure, tree.level queue (depth + 1) = .error failure := by
  induction fuel using Nat.strongRecOn generalizing queue with
  | ind fuel ih =>
      obtain ⟨rest, same, -, later⟩ := pending.split indexed
      cases queue with
      | nil =>
          refine .inl ⟨[], fun depth => ?_⟩
          induction depth with
          | zero => rfl
          | succ depth ihDepth =>
              rw [level, ihDepth]
              rfl
      | cons head queue =>
          have fewer : rest < fuel := by
            rw [same, List.length_cons]
            omega
          cases first : tree.subClientsOfAll (head :: queue) with
          | error failure => exact .inr ⟨0, failure, first⟩
          | ok next =>
              rcases ih rest fewer (later next first) with ⟨levels, made⟩ | ⟨depth, failure, failed⟩
              · refine .inl ⟨next :: levels, fun depth => ?_⟩
                cases depth with
                | zero => exact first
                | succ depth => rw [level_succ_of_ok first, made, List.getD_cons_succ]
              · refine .inr ⟨depth + 1, failure, ?_⟩
                rw [level_succ_of_ok first]
                exact failed

/-- An error comes up where a level is known and the next one cannot be listed. -/
private theorem exists_failing_level {starts : List Client} {depth : Nat} {failure : ListingError}
    (failed : tree.level starts depth = .error failure) :
    ∃ last members, tree.level starts last = .ok members ∧
      tree.subClientsOfAll members = .error failure := by
  induction depth with
  | zero => cases failed
  | succ depth ih =>
      rw [level] at failed
      cases above : tree.level starts depth with
      | error reason =>
          rw [above] at failed
          cases failed
          exact ih above
      | ok members =>
          rw [above, ok_bind] at failed
          exact ⟨depth, members, above, failed⟩

private theorem subClientsOfAll_eq_error_iff {clients : List Client} {failure : ListingError} :
    tree.subClientsOfAll clients = .error failure ↔
      ∃ before failing after, clients = before ++ failing :: after ∧
        (∀ sub ∈ before, ∃ direct, tree.subClients sub.id false = .ok direct) ∧
        tree.subClients failing.id false = .error failure := by
  unfold subClientsOfAll
  rw [map_eq_error_iff, mapM_eq_error_iff]

/-! ### Listings of a tree -/

/-- The recursive listing of a tree is its levels put together, and every listing that fails
names the first fault. -/
structure ListsByLevels (tree : ClientTree) : Prop where
  /-- The first level is the direct listing. -/
  first : ∀ client ∈ tree.clients, tree.level [client] 1 = tree.subClients client.id false
  /-- The recursive listing succeeds with the levels from the first one on. -/
  listed : ∀ client ∈ tree.clients, ∀ listed, tree.subClients client.id true = .ok listed ↔
    ∃ levels : List (List Client),
      (∀ depth, tree.level [client] (depth + 1) = .ok (levels.getD depth [])) ∧
      listed = levels.flatten
  /-- It succeeds when the client and everything on its levels can be listed. -/
  succeeds : ∀ client ∈ tree.clients, (∃ listed, tree.subClients client.id true = .ok listed) ↔
    ∀ depth members, tree.level [client] depth = .ok members →
      ∀ sub ∈ members, ∃ direct, tree.subClients sub.id false = .ok direct
  /-- Otherwise it fails as the first client in level order that cannot be listed. -/
  fails : ∀ client ∈ tree.clients, ∀ failure, tree.subClients client.id true = .error failure ↔
    ∃ depth before failing after,
      tree.level [client] depth = .ok (before ++ failing :: after) ∧
      (∀ sub ∈ before, ∃ direct, tree.subClients sub.id false = .ok direct) ∧
      tree.subClients failing.id false = .error failure
  /-- The direct listing goes over the namespaces and then the interfaces, and gives every
  client that stands for one of them unless it stops at one. -/
  direct : ∀ client ∈ tree.clients, ∃ container,
    tree.graph.container? client.container = some container ∧
    (∀ listed, tree.subClients client.id false = .ok listed ↔
      (∀ child ∈ container.namespaces ++ container.interfaces, ∀ reason,
        ¬ tree.StopsAt client child reason) ∧
      listed = (container.namespaces ++ container.interfaces).filterMap tree.clientFor?) ∧
    ∀ failure, tree.subClients client.id false = .error failure ↔
      ∃ before child after, container.namespaces ++ container.interfaces = before ++ child :: after ∧
        (∀ earlier ∈ before, ∀ reason, ¬ tree.StopsAt client earlier reason) ∧
        tree.StopsAt client child failure
  /-- No listing ends for want of a container. -/
  known : ∀ id recursive container,
    tree.subClients id recursive ≠ .error (.unknownContainer container)

private theorem pending_client (indexed : tree.Indexed) (nested : tree.graph.WellNested)
    {client : Client}
    (member : client ∈ tree.clients) : tree.Pending tree.size [client] where
  members := by
    intro other only
    rw [List.mem_singleton.mp only]
    exact member
  settled := inside_settled indexed nested member

theorem subClients_true (indexed : tree.Indexed) {client : Client}
    (member : client ∈ tree.clients) :
    tree.subClients client.id true = tree.listFrom tree.size [client] := by
  simp only [subClients, indexed.client?_id member, if_true]

theorem subClients_eq_ok_iff_levels (indexed : tree.Indexed) (nested : tree.graph.WellNested)
    {client : Client} (member : client ∈ tree.clients) {listed : List Client} :
    tree.subClients client.id true = .ok listed ↔
      ∃ levels : List (List Client),
        (∀ depth, tree.level [client] (depth + 1) = .ok (levels.getD depth [])) ∧
        listed = levels.flatten := by
  have pending := pending_client indexed nested member
  rw [subClients_true indexed member]
  constructor
  · intro success
    rcases pending.exists_levels indexed with ⟨levels, made⟩ | ⟨depth, failure, failed⟩
    · rw [pending.listFrom_of_levels indexed made] at success
      exact ⟨levels, made, (Except.ok.inj success).symm⟩
    · rw [pending.listFrom_of_error indexed failed] at success
      cases success
  · rintro ⟨levels, made, rfl⟩
    exact pending.listFrom_of_levels indexed made

private theorem subClients_eq_error_iff_level (indexed : tree.Indexed)
    (nested : tree.graph.WellNested)
    {client : Client} (member : client ∈ tree.clients) {failure : ListingError} :
    tree.subClients client.id true = .error failure ↔
      ∃ depth members, tree.level [client] depth = .ok members ∧
        tree.subClientsOfAll members = .error failure := by
  have pending := pending_client indexed nested member
  rw [subClients_true indexed member]
  constructor
  · intro failed
    rcases pending.exists_levels indexed with ⟨levels, made⟩ | ⟨depth, reason, stopped⟩
    · rw [pending.listFrom_of_levels indexed made] at failed
      cases failed
    · rw [pending.listFrom_of_error indexed stopped] at failed
      cases failed
      exact exists_failing_level stopped
  · rintro ⟨depth, members, above, stopped⟩
    have failed : tree.level [client] (depth + 1) = .error failure := by
      rw [level, above, ok_bind, stopped]
    exact pending.listFrom_of_error indexed failed

private theorem exists_subClients_iff (indexed : tree.Indexed) (nested : tree.graph.WellNested)
    {client : Client} (member : client ∈ tree.clients) :
    (∃ listed, tree.subClients client.id true = .ok listed) ↔
      ∀ depth members, tree.level [client] depth = .ok members →
        ∀ sub ∈ members, ∃ direct, tree.subClients sub.id false = .ok direct := by
  constructor
  · rintro ⟨listed, success⟩ depth members above
    refine exists_mapM_eq_ok_iff.mp ?_
    cases below : members.mapM fun client => tree.subClients client.id false with
    | ok lists => exact ⟨lists, rfl⟩
    | error failure =>
        have stopped : tree.subClientsOfAll members = .error failure := by
          rw [subClientsOfAll, below]
          rfl
        have failed := (subClients_eq_error_iff_level indexed nested member).mpr
          ⟨depth, members, above, stopped⟩
        rw [success] at failed
        cases failed
  · intro each
    cases outcome : tree.subClients client.id true with
    | ok listed => exact ⟨listed, rfl⟩
    | error failure =>
        obtain ⟨depth, members, above, stopped⟩ :=
          (subClients_eq_error_iff_level indexed nested member).mp outcome
        obtain ⟨before, failing, after, rfl, -, failed⟩ := subClientsOfAll_eq_error_iff.mp stopped
        obtain ⟨direct, success⟩ := each depth _ above failing (by simp)
        rw [failed] at success
        cases success

private theorem directSubClients_known (nested : tree.graph.WellNested) {client : Client}
    (placed : client.container < tree.graph.size) (id : ContainerId) :
    tree.directSubClients client ≠ .error (.unknownContainer id) := by
  intro failed
  obtain ⟨container, found⟩ := exists_container_of_lt placed
  obtain ⟨-, child, -, -, -, stops⟩ := (directSubClients_eq_error_iff nested found).mp failed
  cases stops

private theorem subClients_known (indexed : tree.Indexed) (nested : tree.graph.WellNested)
    (id : ClientId) (recursive : Bool) (container : ContainerId) :
    tree.subClients id recursive ≠ .error (.unknownContainer container) := by
  have direct : ∀ client ∈ tree.clients,
      tree.subClients client.id false ≠ .error (.unknownContainer container) := by
    intro client member
    rw [subClients_false indexed member]
    exact directSubClients_known nested (indexed.placed client member) container
  cases found : tree.client? id with
  | none =>
      unfold subClients
      rw [found]
      intro failed
      cases failed
  | some client =>
      obtain ⟨member, rfl⟩ := indexed.client?_iff.mp found
      cases recursive with
      | false => exact direct client member
      | true =>
          intro failed
          obtain ⟨depth, members, above, stopped⟩ :=
            (subClients_eq_error_iff_level indexed nested member).mp failed
          obtain ⟨before, failing, after, rfl, -, cause⟩ := subClientsOfAll_eq_error_iff.mp stopped
          have inside : ∀ sub ∈ before ++ failing :: after, sub ∈ tree.clients :=
            level_members indexed (pending_client indexed nested member).members above
          exact direct failing (inside failing (by simp)) cause

/-- The queue of a recursive listing takes the clients level by level, in every tree that
callers can have, and stops where the levels stop. -/
theorem subClients_listsByLevels (made : tree.Made) : tree.ListsByLevels := by
  have indexed : tree.Indexed := made.indexed
  have nested : tree.graph.WellNested := made.wellNested
  refine ⟨?_, ?_, ?_, ?_, ?_, subClients_known indexed nested⟩
  · intro client member
    exact level_one client
  · intro client member listed
    exact subClients_eq_ok_iff_levels indexed nested member
  · intro client member
    exact exists_subClients_iff indexed nested member
  · intro client member failure
    rw [subClients_eq_error_iff_level indexed nested member]
    constructor
    · rintro ⟨depth, members, above, stopped⟩
      obtain ⟨before, failing, after, rfl, fine, failed⟩ := subClientsOfAll_eq_error_iff.mp stopped
      exact ⟨depth, before, failing, after, above, fine, failed⟩
    · rintro ⟨depth, before, failing, after, above, fine, failed⟩
      exact ⟨depth, _, above, subClientsOfAll_eq_error_iff.mpr
        ⟨before, failing, after, rfl, fine, failed⟩⟩
  · intro client member
    obtain ⟨container, found⟩ : ∃ container, tree.graph.container? client.container = some container :=
      exists_container_of_lt (indexed.placed client member)
    rw [subClients_false indexed member]
    exact ⟨container, found, fun listed => directSubClients_eq_ok_iff_stops nested found,
      fun failure => directSubClients_eq_error_iff nested found⟩

/-- Clients two levels deep, the last of which names the wrong parent. -/
def strayClients : List Client :=
  [⟨0, "A", 0, none⟩, ⟨1, "B", 1, some 0⟩, ⟨2, "C", 2, some 0⟩, ⟨3, "D", 3, some 1⟩,
    ⟨4, "E", 4, some 2⟩]

def strayTree : ClientTree :=
  ⟨twoServices, .nonEmpty, strayClients, [(0, 0), (1, 1), (2, 2), (3, 3), (4, 4)]⟩

theorem subClients_listsByLevels_strayTree :
    strayTree.Made ∧ strayTree.ListsByLevels ∧
      strayTree.subClients 0 false = .ok [⟨1, "B", 1, some 0⟩, ⟨2, "C", 2, some 0⟩] ∧
      strayTree.subClients 0 true = .error (.parentMismatch "E" "B") := by
  have accepted : adopt twoServices .nonEmpty strayClients = .ok strayTree := by decide
  have made : strayTree.Made := .adopted reachable_twoServices accepted
  exact ⟨made, subClients_listsByLevels made, by decide, by decide⟩

end SdkClients.ClientTree
