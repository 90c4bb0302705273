import SdkClients.Proofs.ClientTree.LevelOrder

set_option autoImplicit false

/-!
The queue of a recursive listing, round by round.

Nothing in the loop keeps track of the clients that it has met, and parent links may run in
circles. It ends because what is put into the queue stands for containers right inside the one
at hand: these form a forest, and no two clients stand for one container. So the start and the
clients that are listed are all different, each is taken off the queue once at most, and the
number of clients in the tree bounds the number of rounds.
-/

namespace SdkClients.ClientTree

variable {tree : ClientTree} {start : Client}

/-- The loop between two rounds: the clients that have been expanded, those that wait in the
queue, and those that are listed so far. -/
structure Traversal where
  expanded : List Client
  queue : List Client
  listed : List Client

def Traversal.initial (start : Client) : Traversal := ⟨[], [start], []⟩

/-- A round takes a client off the queue, lists its direct sub-clients and puts these at the end
of the queue. -/
inductive Round (tree : ClientTree) : Traversal → Traversal → Prop
  | expand {expanded queue listed level : List Client} {client : Client} :
      tree.directSubClients client = .ok level →
      Round tree ⟨expanded, client :: queue, listed⟩
        ⟨expanded ++ [client], queue ++ level, listed ++ level⟩

/-- How the loop ends: the queue is empty, or the next client cannot be expanded. -/
inductive Ends (tree : ClientTree) : Traversal → Except ListingError (List Client) → Prop
  | emptied {expanded listed : List Client} : Ends tree ⟨expanded, [], listed⟩ (.ok listed)
  | failed {expanded queue listed : List Client} {client : Client} {failure : ListingError} :
      tree.directSubClients client = .error failure →
      Ends tree ⟨expanded, client :: queue, listed⟩ (.error failure)

/-- The loop gets to a state by rounds from a start. -/
def Visits (tree : ClientTree) (start : Client) (state : Traversal) : Prop :=
  Relation.ReflTransGen tree.Round (.initial start) state

/-! ### What every round keeps -/

private theorem Visits.queued {state : Traversal} (visits : tree.Visits start state) :
    state.expanded ++ state.queue = start :: state.listed := by
  induction visits with
  | refl => rfl
  | tail _ round ih =>
      cases round with
      | @expand expanded queue listed level client direct =>
          calc (expanded ++ [client]) ++ (queue ++ level)
              = (expanded ++ client :: queue) ++ level := by simp
            _ = start :: (listed ++ level) := by rw [ih, List.cons_append]

/-- Every client that was put into the queue stands below the one it was found at. -/
private theorem Visits.sweep {state : Traversal} (visits : tree.Visits start state) (fuel : Nat) :
    sweep tree.clientsInside (state.expanded.length + fuel) [start] =
      state.expanded ++ SdkClients.sweep tree.clientsInside fuel state.queue := by
  induction visits generalizing fuel with
  | refl => simp [Traversal.initial]
  | tail _ round ih =>
      cases round with
      | @expand expanded queue listed level client direct =>
          have later := ih (fuel + 1)
          rw [SdkClients.sweep, ← (directSubClients_eq_ok_iff.mp direct).2] at later
          rw [List.length_append, List.length_singleton, Nat.add_assoc, Nat.add_comm 1, later]
          simp

private theorem Visits.listFrom {state : Traversal} (visits : tree.Visits start state)
    (fuel : Nat) :
    tree.listFrom (state.expanded.length + fuel) [start] =
      (tree.listFrom fuel state.queue).map (state.listed ++ ·) := by
  induction visits generalizing fuel with
  | refl =>
      rw [Traversal.initial, List.length_nil, Nat.zero_add]
      cases tree.listFrom fuel [start] <;> rfl
  | tail _ round ih =>
      cases round with
      | @expand expanded queue listed level client direct =>
          have later := ih (fuel + 1)
          rw [ClientTree.listFrom, direct, ok_bind] at later
          rw [List.length_append, List.length_singleton, Nat.add_assoc, Nat.add_comm 1, later]
          cases tree.listFrom fuel (queue ++ level) with
          | error failure => rfl
          | ok deeper => exact congrArg Except.ok (List.append_assoc _ _ _).symm

/-! ### The bound -/

/-- The containers of everything that was put into the queue are listed by one sweep, which takes
each of them once. -/
private theorem Visits.nodup (indexed : tree.Indexed) (nested : tree.graph.WellNested)
    {state : Traversal}
    (visits : tree.Visits start state) : (start :: state.listed).Nodup := by
  have swept := visits.sweep 0
  rw [sweep_zero, visits.queued] at swept
  have distinct : ((start :: state.listed).map Client.container).Nodup := by
    rw [← swept, sweep_containers indexed]
    exact (housedForest nested start.container).sweep_nodup _
  exact .of_map _ distinct

private theorem Visits.mem_clients (indexed : tree.Indexed) (member : start ∈ tree.clients)
    {state : Traversal} (visits : tree.Visits start state) :
    ∀ client ∈ start :: state.listed, client ∈ tree.clients := by
  have swept := visits.sweep 0
  rw [sweep_zero, visits.queued] at swept
  intro client taken
  exact mem_clients_of_reaches indexed member (reaches_of_mem_sweep (swept ▸ taken))

private theorem Visits.length_le (made : tree.Made) (member : start ∈ tree.clients)
    {state : Traversal}
    (visits : tree.Visits start state) :
    state.expanded.length + state.queue.length ≤ tree.size := by
  rw [← List.length_append, visits.queued]
  exact List.Nodup.length_le_of_subset (visits.nodup made.indexed made.wellNested)
    (visits.mem_clients made.indexed member)

/-! ### The end -/

private theorem Round.length_expanded {before after : Traversal} (round : tree.Round before after) :
    after.expanded.length = before.expanded.length + 1 := by
  cases round
  exact List.length_append

private theorem length_expanded_of_rounds {states : Nat → Traversal}
    (initial : states 0 = .initial start)
    (rounds : ∀ round, tree.Round (states round) (states (round + 1))) (round : Nat) :
    tree.Visits start (states round) ∧ (states round).expanded.length = round := by
  induction round with
  | zero => exact ⟨initial ▸ .refl, by rw [initial]; rfl⟩
  | succ round ih =>
      obtain ⟨visits, length⟩ := ih
      exact ⟨visits.tail (rounds round), by rw [(rounds round).length_expanded, length]⟩

/-- A loop that has not ended takes another round, and there are only so many clients to expand. -/
private theorem Visits.exists_end (made : tree.Made) (member : start ∈ tree.clients)
    {state : Traversal}
    (visits : tree.Visits start state) :
    ∃ last outcome, tree.Visits start last ∧ tree.Ends last outcome := by
  obtain ⟨left, same⟩ : ∃ left, tree.size - state.expanded.length = left := ⟨_, rfl⟩
  induction left using Nat.strongRecOn generalizing state with
  | ind left ih =>
      obtain ⟨expanded, queue, listed⟩ := state
      cases queue with
      | nil => exact ⟨_, _, visits, .emptied⟩
      | cons client queue =>
          cases direct : tree.directSubClients client with
          | error failure => exact ⟨_, _, visits, .failed direct⟩
          | ok level =>
              have round : tree.Round ⟨expanded, client :: queue, listed⟩
                  ⟨expanded ++ [client], queue ++ level, listed ++ level⟩ := .expand direct
              have bound := visits.length_le made member
              refine ih _ ?_ (visits.tail round) rfl
              simp only [List.length_append, List.length_cons] at same bound ⊢
              omega

/-- The state in which the loop ends tells the answer of the listing. -/
private theorem Ends.outcome_eq (made : tree.Made) (member : start ∈ tree.clients)
    {state : Traversal}
    (visits : tree.Visits start state) {outcome : Except ListingError (List Client)}
    (ends : tree.Ends state outcome) : outcome = tree.subClients start.id true := by
  have bound := visits.length_le made member
  obtain ⟨fuel, enough⟩ := Nat.exists_eq_add_of_le
    (Nat.le_trans (Nat.le_add_right state.expanded.length state.queue.length) bound)
  rw [subClients_true made.indexed member, enough, visits.listFrom fuel]
  cases ends with
  | emptied =>
      have empty : tree.listFrom fuel [] = .ok [] := by cases fuel <;> rfl
      rw [empty]
      exact congrArg Except.ok (List.append_nil _).symm
  | @failed expanded queue listed client failure direct =>
      -- the client at the head of the queue is one more than those expanded
      obtain ⟨less, rfl⟩ : ∃ less, fuel = less + 1 := by
        refine Nat.exists_eq_succ_of_ne_zero ?_
        simp only [List.length_cons] at bound enough
        omega
      rw [ClientTree.listFrom, direct]
      rfl

/-- The loop of the recursive listing from a client comes to an end. -/
structure Terminates (tree : ClientTree) (start : Client) : Prop where
  /-- What was ever put into the queue is the start and the clients listed so far. No client is
  among them twice, so no more clients are expanded than the tree has. -/
  once : ∀ state, tree.Visits start state →
    state.expanded ++ state.queue = start :: state.listed ∧ (start :: state.listed).Nodup ∧
      (∀ client ∈ start :: state.listed, client ∈ tree.clients) ∧
      state.expanded.length + state.queue.length ≤ tree.size
  /-- The loop does not go on forever. -/
  finite : ∀ states : Nat → Traversal, states 0 = .initial start →
    ¬ ∀ round, tree.Round (states round) (states (round + 1))
  /-- It ends with the answer of the listing and with no other. -/
  answer : ∀ outcome, (∃ state, tree.Visits start state ∧ tree.Ends state outcome) ↔
    outcome = tree.subClients start.id true

/-- The recursive listing ends in every tree that callers can have, from every client, whatever
the parent links are. -/
theorem subClients_terminates (made : tree.Made) (member : start ∈ tree.clients) :
    tree.Terminates start where
  once := fun state visits =>
    ⟨visits.queued, visits.nodup made.indexed made.wellNested, visits.mem_clients made.indexed member,
      visits.length_le made member⟩
  finite := by
    intro states initial rounds
    obtain ⟨visits, length⟩ := length_expanded_of_rounds initial rounds (tree.size + 1)
    have bound := visits.length_le made member
    omega
  answer := by
    intro outcome
    constructor
    · rintro ⟨state, visits, ends⟩
      exact ends.outcome_eq made member visits
    · rintro rfl
      have started : tree.Visits start (.initial start) := .refl
      obtain ⟨last, outcome, visits, ends⟩ := started.exists_end made member
      rw [← ends.outcome_eq made member visits]
      exact ⟨last, visits, ends⟩

/-- Clients for the containers of a graph, out of order: the first container has the third client,
whose parent is the first client and the parent of that one. -/
def loopedClients : List Client :=
  [⟨0, "B", 1, some 2⟩, ⟨1, "E", 4, some 0⟩, ⟨2, "A", 0, some 0⟩, ⟨3, "C", 2, some 2⟩,
    ⟨4, "D", 3, some 0⟩]

def loopedTree : ClientTree :=
  ⟨ContainerGraph.twoServices, .nonEmpty, loopedClients, [(1, 0), (4, 1), (0, 2), (2, 3), (3, 4)]⟩

theorem subClients_terminates_loopedTree :
    loopedTree.Made ∧ ⟨2, "A", 0, some 0⟩ ∈ loopedTree.clients ∧
      loopedTree.Terminates ⟨2, "A", 0, some 0⟩ ∧
      loopedTree.subClients 2 true = .ok
        [⟨0, "B", 1, some 2⟩, ⟨3, "C", 2, some 2⟩, ⟨4, "D", 3, some 0⟩, ⟨1, "E", 4, some 0⟩] := by
  have accepted : adopt ContainerGraph.twoServices .nonEmpty loopedClients = .ok loopedTree := by
    decide
  have made : loopedTree.Made := .adopted ContainerGraph.reachable_twoServices accepted
  have member : ⟨2, "A", 0, some 0⟩ ∈ loopedTree.clients := by decide
  exact ⟨made, member, subClients_terminates made member, by decide⟩

end SdkClients.ClientTree
