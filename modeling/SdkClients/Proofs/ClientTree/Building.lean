import SdkClients.Proofs.ClientTree.Index
import SdkClients.Proofs.ClientTree.Promotion

set_option autoImplicit false

/-!
The clients of a built tree, and its index.

Building numbers the containers of a sweep. Its clients are the root clients, followed by the
clients nested in each client of the tree in turn, so the clients of one parent stand together
and parents never come back to an earlier one. Each client enters the index as it is made, so
the index is made of the clients and their containers, and positions taken off the queue always
lead to the client that was put there.
-/

namespace SdkClients

def Client.NamedIn (client : Client) (graph : ContainerGraph) : Prop :=
  ∃ container, graph.container? client.container = some container ∧ client.name = container.name

namespace ClientTree

variable {graph : ContainerGraph} {rule : PromotionRule}

/-! ### Numbering -/

/-- Clients for containers of a graph, numbered from a given position on. -/
def number (graph : ContainerGraph) (parent : Option ClientId) (next : ClientId) :
    List ContainerId → List Client
  | [] => []
  | container :: others =>
      match graph.container? container with
      | none => number graph parent next others
      | some found => ⟨next, found.name, container, parent⟩ :: number graph parent (next + 1) others

theorem number_containers {parent : Option ClientId} {next : ClientId} {ids : List ContainerId}
    (present : ∀ id ∈ ids, id < graph.size) :
    (number graph parent next ids).map Client.container = ids := by
  induction ids generalizing next with
  | nil => rfl
  | cons id ids ih =>
      obtain ⟨presentHead, presentTail⟩ := List.forall_mem_cons.mp present
      obtain ⟨container, found⟩ := ContainerGraph.exists_container_of_lt presentHead
      simp only [number, found, List.map_cons, ih presentTail]

theorem number_ids (parent : Option ClientId) (next : ClientId) (ids : List ContainerId) :
    (number graph parent next ids).map Client.id =
      List.range' next (number graph parent next ids).length := by
  induction ids generalizing next with
  | nil => rfl
  | cons id ids ih =>
      cases found : graph.container? id with
      | none => simp only [number, found, ih]
      | some container =>
          simp only [number, found, List.map_cons, List.length_cons, List.range'_succ, ih]

theorem mem_number {parent : Option ClientId} {next : ClientId} {ids : List ContainerId}
    {client : Client} (member : client ∈ number graph parent next ids) :
    client.parent = parent ∧ client.container ∈ ids ∧ client.NamedIn graph := by
  induction ids generalizing next with
  | nil => cases member
  | cons id ids ih =>
      cases found : graph.container? id with
      | none =>
          simp only [number, found] at member
          obtain ⟨sameParent, listed, named⟩ := ih member
          exact ⟨sameParent, List.mem_cons_of_mem id listed, named⟩
      | some container =>
          simp only [number, found] at member
          rcases List.mem_cons.mp member with rfl | later
          · exact ⟨rfl, List.mem_cons_self, container, found, rfl⟩
          · obtain ⟨sameParent, listed, named⟩ := ih later
            exact ⟨sameParent, List.mem_cons_of_mem id listed, named⟩

theorem id_of_mem_number {parent : Option ClientId} {next : ClientId} {ids : List ContainerId}
    {client : Client} (member : client ∈ number graph parent next ids) :
    next ≤ client.id ∧ client.id < next + (number graph parent next ids).length := by
  have listed : client.id ∈ (number graph parent next ids).map Client.id :=
    List.mem_map_of_mem member
  rw [number_ids, List.mem_range'_1] at listed
  exact listed

theorem promoted_present (outer : ContainerId) :
    ∀ inner ∈ graph.promoted rule outer, inner < graph.size :=
  fun _ member => ContainerGraph.lt_size_of_qualifies
    (ContainerGraph.mem_promoted_iff.mp member).2

/-! ### The queue -/

/-- The clients of a queue, each followed at the end of the queue by those nested in it; `next` is the
first unused position. -/
def expand (graph : ContainerGraph) (rule : PromotionRule) :
    Nat → List Client → ClientId → List Client
  | _, [], _ => []
  | 0, queue, _ => queue
  | fuel + 1, client :: queue, next =>
      let nested := number graph (some client.id) next (graph.promoted rule client.container)
      client :: expand graph rule fuel (queue ++ nested) (next + nested.length)

@[simp] theorem expand_zero (queue : List Client) (next : ClientId) :
    expand graph rule 0 queue next = queue := by
  cases queue <;> rfl

@[simp] theorem expand_nil (fuel : Nat) (next : ClientId) :
    expand graph rule fuel [] next = [] := by
  cases fuel <;> rfl

theorem expand_containers (fuel : Nat) (queue : List Client) (next : ClientId) :
    (expand graph rule fuel queue next).map Client.container =
      sweep (graph.promoted rule) fuel (queue.map Client.container) := by
  induction fuel generalizing queue next with
  | zero => simp
  | succ fuel ih =>
      cases queue with
      | nil => simp
      | cons head queue =>
          simp only [expand, List.map_cons, sweep, ih, List.map_append,
            number_containers (promoted_present head.container)]

/-- Fuel that is left when the queue is empty changes nothing. -/
theorem expand_add {fuel : Nat} {queue : List Client} (next : ClientId)
    (settled : Settled (graph.promoted rule) fuel (queue.map Client.container)) (more : Nat) :
    expand graph rule (fuel + more) queue next = expand graph rule fuel queue next := by
  induction fuel generalizing queue next with
  | zero =>
      have empty : queue = [] := by simpa [Settled] using settled
      rw [empty, expand_nil, expand_nil]
  | succ fuel ih =>
      cases queue with
      | nil => rw [expand_nil, expand_nil]
      | cons head queue =>
          have rest : Settled (graph.promoted rule) fuel
              ((queue ++ number graph (some head.id) next
                (graph.promoted rule head.container)).map Client.container) := by
            rw [List.map_append, number_containers (promoted_present head.container)]
            simpa [Settled, sweep] using settled
          rw [Nat.add_right_comm, expand, expand]
          exact congrArg (head :: ·) (ih _ rest)

theorem expand_ids (fuel : Nat) (queue : List Client) (start : Nat)
    (ids : queue.map Client.id = List.range' start queue.length) :
    (expand graph rule fuel queue (start + queue.length)).map Client.id =
      List.range' start (expand graph rule fuel queue (start + queue.length)).length := by
  induction fuel generalizing queue start with
  | zero => simpa using ids
  | succ fuel ih =>
      cases queue with
      | nil => simp
      | cons head queue =>
          simp only [List.map_cons, List.length_cons, List.range'_succ, List.cons.injEq] at ids
          obtain ⟨first, others⟩ := ids
          simp only [expand]
          generalize nestedAt : number graph (some head.id) (start + (head :: queue).length)
            (graph.promoted rule head.container) = nested
          have nestedIds : nested.map Client.id =
              List.range' (start + 1 + queue.length) nested.length := by
            rw [← nestedAt, number_ids, List.length_cons, Nat.add_comm queue.length,
              Nat.add_assoc start]
          have joined : (queue ++ nested).map Client.id =
              List.range' (start + 1) (queue ++ nested).length := by
            rw [List.map_append, others, nestedIds, List.length_append, ← List.range'_append]
            simp
          have next : start + (head :: queue).length + nested.length =
              start + 1 + (queue ++ nested).length := by
            simp only [List.length_cons, List.length_append]
            omega
          have later := ih (queue ++ nested) (start + 1) joined
          rw [next, List.map_cons, List.length_cons, List.range'_succ, later, first]

theorem expand_named (fuel : Nat) (queue : List Client) (next : ClientId)
    (named : ∀ client ∈ queue, client.NamedIn graph) :
    ∀ client ∈ expand graph rule fuel queue next, client.NamedIn graph := by
  induction fuel generalizing queue next with
  | zero => simpa using named
  | succ fuel ih =>
      cases queue with
      | nil => simp
      | cons head queue =>
          obtain ⟨namedHead, namedTail⟩ := List.forall_mem_cons.mp named
          refine List.forall_mem_cons.mpr ⟨namedHead, ih _ _ ?_⟩
          intro client member
          rcases List.mem_append.mp member with waiting | nested
          · exact namedTail client waiting
          · exact (mem_number nested).2.2

/-- A client that was not in the queue at first was put there by an earlier one. -/
theorem expand_origin (fuel : Nat) (queue : List Client) (next : ClientId)
    (older : ∀ client ∈ queue, client.id < next) :
    ∀ client ∈ expand graph rule fuel queue next, client ∈ queue ∨
      ∃ parent ∈ expand graph rule fuel queue next, client.parent = some parent.id ∧
        parent.id < client.id ∧ client.container ∈ graph.promoted rule parent.container := by
  induction fuel generalizing queue next with
  | zero =>
      intro client member
      exact .inl (by simpa using member)
  | succ fuel ih =>
      cases queue with
      | nil =>
          intro client member
          simp at member
      | cons head queue =>
          obtain ⟨olderHead, olderTail⟩ := List.forall_mem_cons.mp older
          simp only [expand]
          generalize nestedAt : number graph (some head.id) next
            (graph.promoted rule head.container) = nested
          have olderQueue : ∀ client ∈ queue ++ nested, client.id < next + nested.length := by
            intro client member
            rcases List.mem_append.mp member with waiting | listed
            · exact Nat.lt_of_lt_of_le (olderTail client waiting) (Nat.le_add_right _ _)
            · rw [← nestedAt] at listed ⊢
              exact (id_of_mem_number listed).2
          intro client member
          rcases List.mem_cons.mp member with rfl | later
          · exact .inl List.mem_cons_self
          · rcases ih _ _ olderQueue client later with start | ⟨parent, listed, link, before⟩
            · rcases List.mem_append.mp start with waiting | listed
              · exact .inl (List.mem_cons_of_mem head waiting)
              · rw [← nestedAt] at listed
                obtain ⟨link, inside, -⟩ := mem_number listed
                have before := Nat.lt_of_lt_of_le olderHead (id_of_mem_number listed).1
                exact .inr ⟨head, List.mem_cons_self, link, before, inside⟩
            · exact .inr ⟨parent, List.mem_cons_of_mem head listed, link, before⟩

/-! ### The index -/

/-- What is there after clients have been made one after the other. -/
def Roster.of (clients : List Client) : Roster :=
  ⟨clients, Keyed.ofList (indexOf clients)⟩

private theorem push_of (clients : List Client) (parent : Option ClientId)
    (container : ContainerId) :
    (Roster.of clients).push graph parent container =
      (graph.container? container).map fun found =>
        (Roster.of (clients ++ [⟨clients.length, found.name, container, parent⟩]),
          clients.length) := by
  have entered : ∀ client : Client, Keyed.ofList (indexOf (clients ++ [client])) =
      Keyed.put client.container client.id (Keyed.ofList (indexOf clients)) := by
    intro client
    unfold Keyed.ofList indexOf
    rw [List.map_append, List.map_singleton, List.foldl_append, List.foldl_cons, List.foldl_nil]
  unfold Roster.push Roster.of
  simp only [entered]

theorem pushAll_of (clients : List Client) (parent : Option ClientId) (queue : List ClientId)
    (ids : List ContainerId) :
    Roster.pushAll graph parent (.of clients) queue ids =
      (.of (clients ++ number graph parent clients.length ids),
        queue ++ (number graph parent clients.length ids).map Client.id) := by
  induction ids generalizing clients queue with
  | nil => simp [Roster.pushAll, number]
  | cons id ids ih =>
      rw [Roster.pushAll, push_of]
      cases found : graph.container? id with
      | none => simp only [Option.map_none, ih, number, found]
      | some container =>
          simp only [Option.map_some, ih, number, found, List.length_append, List.length_singleton,
            List.append_assoc, List.singleton_append, List.map_cons]

/-- A queue of positions does what a queue of clients does: the position in front is that of the
first client behind those that are done. -/
theorem grow_of (fuel : Nat) (done queue : List Client)
    (ids : (done ++ queue).map Client.id = List.range (done ++ queue).length) :
    Roster.grow graph rule fuel (.of (done ++ queue)) (queue.map Client.id) =
      .of (done ++ expand graph rule fuel queue (done ++ queue).length) := by
  induction fuel generalizing done queue with
  | zero => cases queue <;> simp [Roster.grow]
  | succ fuel ih =>
      cases queue with
      | nil => simp [Roster.grow]
      | cons head queue =>
          have position : head.id = done.length := by
            have front : ((done ++ head :: queue).map Client.id)[done.length]? = some head.id := by
              simp
            rw [ids, List.getElem?_range (by simp), Option.some.injEq] at front
            exact front.symm
          have located : (done ++ head :: queue)[head.id]? = some head := by simp [position]
          generalize nestedAt : number graph (some head.id) (done ++ head :: queue).length
            (graph.promoted rule head.container) = nested
          have step : Roster.grow graph rule (fuel + 1) (.of (done ++ head :: queue))
              ((head :: queue).map Client.id) =
              Roster.grow graph rule fuel (.of ((done ++ [head]) ++ (queue ++ nested)))
                ((queue ++ nested).map Client.id) := by
            rw [List.map_cons, Roster.grow, show (Roster.of (done ++ head :: queue)).clients[head.id]? =
              some head from located]
            simp only [pushAll_of, nestedAt, List.append_assoc, List.cons_append, List.nil_append,
              List.map_append]
          have regrouped : (done ++ [head]) ++ (queue ++ nested) =
              (done ++ head :: queue) ++ nested := by simp
          have total : ((done ++ head :: queue) ++ nested).length =
              (done ++ head :: queue).length + nested.length := List.length_append
          have idsNext : ((done ++ [head]) ++ (queue ++ nested)).map Client.id =
              List.range ((done ++ [head]) ++ (queue ++ nested)).length := by
            rw [regrouped, total, List.map_append, ids, ← nestedAt, number_ids, nestedAt,
              List.range_eq_range', List.range_eq_range', ← List.range'_append, Nat.zero_add,
              Nat.one_mul]
          rw [step, ih _ _ idsNext, expand, regrouped, total, nestedAt, List.append_assoc,
            List.singleton_append]

/-! ### Broods -/

/-- The clients nested in given clients, numbered one after the other. -/
def brood (graph : ContainerGraph) (rule : PromotionRule) : ClientId → List Client → List Client
  | _, [] => []
  | next, client :: others =>
      let nested := number graph (some client.id) next (graph.promoted rule client.container)
      nested ++ brood graph rule (next + nested.length) others

theorem expand_eq_queue_append (fuel : Nat) (queue : List Client) (next : ClientId) :
    expand graph rule fuel queue next =
      queue ++ brood graph rule next ((expand graph rule fuel queue next).take fuel) := by
  induction fuel generalizing queue next with
  | zero => simp [brood]
  | succ fuel ih =>
      cases queue with
      | nil => simp [brood]
      | cons head queue =>
          have later := ih (queue ++ number graph (some head.id) next
              (graph.promoted rule head.container))
            (next + (number graph (some head.id) next
              (graph.promoted rule head.container)).length)
          rw [List.append_assoc] at later
          simp only [expand, List.take_succ_cons, brood, List.cons_append, List.cons.injEq,
            true_and]
          exact later

theorem parent_of_mem_brood {next : ClientId} {clients : List Client} {client : Client}
    (member : client ∈ brood graph rule next clients) :
    ∃ parent ∈ clients, client.parent = some parent.id := by
  induction clients generalizing next with
  | nil => cases member
  | cons head clients ih =>
      rcases List.mem_append.mp member with nested | later
      · exact ⟨head, List.mem_cons_self, (mem_number nested).1⟩
      · obtain ⟨parent, listed, link⟩ := ih later
        exact ⟨parent, List.mem_cons_of_mem head listed, link⟩

theorem brood_pairwise {next : ClientId} {clients : List Client}
    (sorted : clients.Pairwise fun first second => first.id < second.id) :
    (brood graph rule next clients).Pairwise fun first second =>
      ∀ former latter, first.parent = some former → second.parent = some latter →
        former ≤ latter := by
  induction clients generalizing next with
  | nil => exact List.Pairwise.nil
  | cons head clients ih =>
      obtain ⟨headFirst, tailSorted⟩ := List.pairwise_cons.mp sorted
      refine List.pairwise_append.mpr ⟨?_, ih tailSorted, ?_⟩
      · refine List.pairwise_of_forall_mem_list ?_
        intro first left second right former latter firstLink secondLink
        rw [(mem_number left).1, Option.some.injEq] at firstLink
        rw [(mem_number right).1, Option.some.injEq] at secondLink
        exact Nat.le_of_eq (firstLink.symm.trans secondLink)
      · intro first left second right former latter firstLink secondLink
        rw [(mem_number left).1, Option.some.injEq] at firstLink
        obtain ⟨parent, listed, link⟩ := parent_of_mem_brood right
        rw [link, Option.some.injEq] at secondLink
        rw [← firstLink, ← secondLink]
        exact Nat.le_of_lt (headFirst parent listed)

theorem brood_filter {next : ClientId} {clients : List Client}
    (sorted : clients.Pairwise fun first second => first.id < second.id)
    {client : Client} (member : client ∈ clients) :
    ∃ start, (brood graph rule next clients).filter (fun other => other.parent == some client.id) =
      number graph (some client.id) start (graph.promoted rule client.container) := by
  induction clients generalizing next with
  | nil => cases member
  | cons head clients ih =>
      obtain ⟨headFirst, tailSorted⟩ := List.pairwise_cons.mp sorted
      simp only [brood, List.filter_append]
      rcases List.mem_cons.mp member with rfl | later
      · refine ⟨next, ?_⟩
        have own : ∀ other ∈ number graph (some client.id) next
            (graph.promoted rule client.container), (other.parent == some client.id) = true :=
          fun other nested => by simp [(mem_number nested).1]
        rw [List.filter_eq_self.mpr own, List.filter_eq_nil_iff.mpr, List.append_nil]
        intro other nested
        obtain ⟨parent, listed, link⟩ := parent_of_mem_brood nested
        have different := Nat.ne_of_gt (headFirst parent listed)
        simp [link, different]
      · obtain ⟨start, rest⟩ := ih tailSorted later
        refine ⟨start, ?_⟩
        rw [rest, List.filter_eq_nil_iff.mpr, List.nil_append]
        intro other nested
        have different := Nat.ne_of_lt (headFirst client later)
        simp [(mem_number nested).1, different]

end ClientTree

end SdkClients
