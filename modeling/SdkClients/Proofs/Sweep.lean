import Mathlib.Data.List.Forall2
import Mathlib.Data.List.Nodup
import Mathlib.Logic.Relation

set_option autoImplicit false

/-!
Working off a queue.

A sweep takes the head of a queue and puts what lies right below it at the end of the
queue, until nothing is left or a given number of heads has been taken. What it lists is the
queue followed by everything below its own entries, in their order.
-/

namespace SdkClients

variable {α β : Type}

/-- The entries of a queue in the order in which they are taken off. The fuel bounds how many
are taken; the entries that are left then stay as they are. -/
def sweep (below : α → List α) : Nat → List α → List α
  | _, [] => []
  | 0, queue => queue
  | fuel + 1, head :: queue => head :: sweep below fuel (queue ++ below head)

/-- The fuel was enough: every entry that is listed has also been taken off. -/
def Settled (below : α → List α) (fuel : Nat) (queue : List α) : Prop :=
  (sweep below fuel queue).length ≤ fuel

/-- An entry that steps down from the queue lead to. -/
def Reaches (below : α → List α) (queue : List α) (entry : α) : Prop :=
  ∃ start ∈ queue, Relation.ReflTransGen (fun upper lower => lower ∈ below upper) start entry

theorem Reaches.step {below : α → List α} {queue : List α} {upper lower : α}
    (reached : Reaches below queue upper) (nested : lower ∈ below upper) :
    Reaches below queue lower := by
  obtain ⟨start, member, path⟩ := reached
  exact ⟨start, member, path.tail nested⟩

theorem Reaches.of_mem {below : α → List α} {queue : List α} {entry : α}
    (member : entry ∈ queue) : Reaches below queue entry :=
  ⟨entry, member, .refl⟩

@[simp] theorem sweep_nil (below : α → List α) (fuel : Nat) : sweep below fuel [] = [] := by
  cases fuel <;> rfl

@[simp] theorem sweep_zero (below : α → List α) (queue : List α) :
    sweep below 0 queue = queue := by
  cases queue <;> rfl

/-- What a sweep lists is its queue, followed by what lies below the entries it took off. -/
theorem sweep_eq_queue_append (below : α → List α) (fuel : Nat) (queue : List α) :
    sweep below fuel queue =
      queue ++ ((sweep below fuel queue).take fuel).flatMap below := by
  induction fuel generalizing queue with
  | zero => simp
  | succ fuel ih =>
      cases queue with
      | nil => simp
      | cons head queue =>
          have later := ih (queue ++ below head)
          simp only [sweep, List.take_succ_cons, List.flatMap_cons, List.cons_append,
            List.cons.injEq, true_and]
          rw [List.append_assoc] at later
          exact later

private theorem Settled.eq_queue_append {below : α → List α} {fuel : Nat} {queue : List α}
    (settled : Settled below fuel queue) :
    sweep below fuel queue = queue ++ (sweep below fuel queue).flatMap below := by
  have general := sweep_eq_queue_append below fuel queue
  rw [List.take_of_length_le settled] at general
  exact general

private theorem Settled.add {below : α → List α} {fuel : Nat} {queue : List α}
    (settled : Settled below fuel queue) (more : Nat) :
    sweep below (fuel + more) queue = sweep below fuel queue := by
  induction fuel generalizing queue with
  | zero =>
      have empty : queue = [] := by simpa [Settled] using settled
      rw [empty, sweep_nil, sweep_nil]
  | succ fuel ih =>
      cases queue with
      | nil => rw [sweep_nil, sweep_nil]
      | cons head queue =>
          have rest : Settled below fuel (queue ++ below head) := by
            simpa [Settled, sweep] using settled
          rw [Nat.add_right_comm, sweep, sweep, ih rest]

theorem Settled.of_le {below : α → List α} {fuel larger : Nat} {queue : List α}
    (settled : Settled below fuel queue) (enough : fuel ≤ larger) :
    sweep below larger queue = sweep below fuel queue := by
  obtain ⟨more, rfl⟩ := Nat.exists_eq_add_of_le enough
  exact settled.add more

theorem sweep_append (below : α → List α) (fuel : Nat) (first second : List α) :
    sweep below (fuel + first.length) (first ++ second) =
      first ++ sweep below fuel (second ++ first.flatMap below) := by
  induction first generalizing second with
  | nil => simp
  | cons head first ih =>
      have later := ih (second ++ below head)
      rw [List.length_cons, ← Nat.add_assoc, List.cons_append, sweep, List.append_assoc, later]
      simp

theorem sweep_forall₂ {belowLeft : α → List α} {belowRight : β → List β} {R : α → β → Prop}
    (alike : ∀ left right, R left right → List.Forall₂ R (belowLeft left) (belowRight right))
    (fuel : Nat) {left : List α} {right : List β} (related : List.Forall₂ R left right) :
    List.Forall₂ R (sweep belowLeft fuel left) (sweep belowRight fuel right) := by
  induction fuel generalizing left right with
  | zero => simpa using related
  | succ fuel ih =>
      cases related with
      | nil => simp
      | cons head tail =>
          exact .cons head (ih (List.rel_append tail (alike _ _ head)))

theorem Settled.of_forall₂ {belowLeft : α → List α} {belowRight : β → List β} {R : α → β → Prop}
    (alike : ∀ left right, R left right → List.Forall₂ R (belowLeft left) (belowRight right))
    {fuel : Nat} {left : List α} {right : List β} (related : List.Forall₂ R left right)
    (settled : Settled belowLeft fuel left) : Settled belowRight fuel right := by
  unfold Settled at settled ⊢
  rw [← (sweep_forall₂ alike fuel related).length_eq]
  exact settled

theorem sweep_map {belowLeft : α → List α} {belowRight : β → List β} {f : α → β}
    (alike : ∀ entry, (belowLeft entry).map f = belowRight (f entry)) (fuel : Nat)
    (queue : List α) :
    (sweep belowLeft fuel queue).map f = sweep belowRight fuel (queue.map f) := by
  induction fuel generalizing queue with
  | zero => simp
  | succ fuel ih =>
      cases queue with
      | nil => simp
      | cons head queue => simp only [sweep, List.map_cons, ih, List.map_append, alike]

theorem sweep_congr {below other : α → List α} {fuel : Nat} {queue : List α}
    (same : ∀ entry, Reaches below queue entry → below entry = other entry) :
    sweep below fuel queue = sweep other fuel queue := by
  induction fuel generalizing queue with
  | zero => simp
  | succ fuel ih =>
      cases queue with
      | nil => simp
      | cons head queue =>
          have atHead : below head = other head := same head (.of_mem List.mem_cons_self)
          rw [sweep, sweep, ← atHead, ih]
          rintro entry ⟨start, member, path⟩
          rcases List.mem_append.mp member with waiting | nested
          · exact same entry ⟨start, List.mem_cons_of_mem head waiting, path⟩
          · exact same entry ⟨head, List.mem_cons_self, .head nested path⟩

/-- A sweep over the entries that are kept: nothing changes but that the others are left
out, since nothing lies below them. -/
theorem sweep_filter {below : α → List α} {keep : α → Bool}
    (leaf : ∀ entry, keep entry = false → below entry = []) {fuel : Nat} {queue : List α}
    (settled : Settled below fuel queue) :
    (sweep below fuel queue).filter keep =
      sweep (fun entry => (below entry).filter keep) fuel (queue.filter keep) := by
  induction fuel generalizing queue with
  | zero => simp
  | succ fuel ih =>
      cases queue with
      | nil => simp
      | cons head queue =>
          have rest : Settled below fuel (queue ++ below head) := by
            simpa [Settled, sweep] using settled
          have later := ih rest
          rw [List.filter_append] at later
          cases kept : keep head with
          | true => simp [sweep, kept, later]
          | false =>
              rw [leaf head kept, List.filter_nil, List.append_nil, List.append_nil] at later
              rw [leaf head kept, List.append_nil] at rest
              have short : Settled (fun entry => (below entry).filter keep) fuel
                  (queue.filter keep) := by
                unfold Settled
                rw [← later]
                exact Nat.le_trans (List.length_filter_le _ _) rest
              rw [sweep, leaf head kept, List.append_nil, List.filter_cons_of_neg (by simp [kept]),
                List.filter_cons_of_neg (by simp [kept]), short.add 1]
              exact later

/-! ### What is listed -/

theorem reaches_of_mem_sweep {below : α → List α} {fuel : Nat} {queue : List α} {entry : α}
    (listed : entry ∈ sweep below fuel queue) : Reaches below queue entry := by
  induction fuel generalizing queue with
  | zero => exact .of_mem (by simpa using listed)
  | succ fuel ih =>
      cases queue with
      | nil => simp at listed
      | cons head queue =>
          rw [sweep] at listed
          rcases List.mem_cons.mp listed with same | later
          · exact .of_mem (by simp [same])
          · obtain ⟨start, member, path⟩ := ih later
            rcases List.mem_append.mp member with waiting | nested
            · exact ⟨start, List.mem_cons_of_mem head waiting, path⟩
            · exact ⟨head, List.mem_cons_self, .head nested path⟩

theorem Settled.mem_iff {below : α → List α} {fuel : Nat} {queue : List α}
    (settled : Settled below fuel queue) (entry : α) :
    entry ∈ sweep below fuel queue ↔ Reaches below queue entry := by
  constructor
  · exact reaches_of_mem_sweep
  · rintro ⟨start, member, path⟩
    induction path with
    | refl =>
        rw [settled.eq_queue_append]
        exact List.mem_append_left _ member
    | tail _ nested ih =>
        rw [settled.eq_queue_append]
        exact List.mem_append_right _ (List.mem_flatMap.mpr ⟨_, ih, nested⟩)

/-! ### No entry is listed twice -/

/-- Every entry lies right below at most one other, once, and the queue is not entered from
above: the entries it leads to are spread out like a forest. -/
structure Forest (below : α → List α) (queue : List α) : Prop where
  distinct : ∀ upper, (below upper).Nodup
  single : ∀ first second lower, lower ∈ below first → lower ∈ below second → first = second
  starts : queue.Nodup
  apart : ∀ upper, Reaches below queue upper → ∀ start ∈ queue, start ∉ below upper

private theorem sweep_nodup_from {below : α → List α} {starts : List α}
    (forest : Forest below starts) (fuel : Nat) (taken queue : List α)
    (distinct : (taken ++ queue).Nodup)
    (reached : ∀ entry ∈ taken ++ queue, Reaches below starts entry)
    (origin : ∀ entry ∈ taken ++ queue, entry ∈ starts ∨ ∃ upper ∈ taken, entry ∈ below upper) :
    (taken ++ sweep below fuel queue).Nodup := by
  -- what was taken and what waits stay distinct: an entry comes from the start or from below
  -- one that was taken, and no two entries have the same one below them
  induction fuel generalizing taken queue with
  | zero => simpa using distinct
  | succ fuel ih =>
      cases queue with
      | nil => simpa using distinct
      | cons head queue =>
          have reachedHead : Reaches below starts head := reached head (by simp)
          have headFresh : head ∉ taken := by
            intro member
            exact (List.nodup_append.mp distinct).2.2 head member head List.mem_cons_self rfl
          have nestedFresh : ∀ entry ∈ taken ++ head :: queue, entry ∉ below head := by
            intro entry member nested
            rcases origin entry member with start | ⟨upper, settled, under⟩
            · exact forest.apart head reachedHead entry start nested
            · have same := forest.single upper head entry under nested
              exact headFresh (same ▸ settled)
          have shifted : taken ++ sweep below (fuel + 1) (head :: queue) =
              (taken ++ [head]) ++ sweep below fuel (queue ++ below head) := by
            simp [sweep]
          have regrouped : (taken ++ [head]) ++ (queue ++ below head) =
              (taken ++ head :: queue) ++ below head := by
            simp
          rw [shifted]
          apply ih
          · rw [regrouped]
            refine List.nodup_append.mpr ⟨distinct, forest.distinct head, ?_⟩
            intro entry member other nested same
            exact nestedFresh entry member (same ▸ nested)
          · intro entry member
            rw [regrouped] at member
            rcases List.mem_append.mp member with before | nested
            · exact reached entry before
            · exact reachedHead.step nested
          · intro entry member
            rw [regrouped] at member
            rcases List.mem_append.mp member with before | nested
            · rcases origin entry before with start | ⟨upper, settled, under⟩
              · exact .inl start
              · exact .inr ⟨upper, List.mem_append_left _ settled, under⟩
            · exact .inr ⟨head, by simp, nested⟩

theorem Forest.sweep_nodup {below : α → List α} {starts : List α}
    (forest : Forest below starts) (fuel : Nat) : (sweep below fuel starts).Nodup :=
  sweep_nodup_from forest fuel [] starts forest.starts
    (fun _ member => .of_mem member) (fun _ member => .inl member)

theorem Forest.settled {below : α → List α} {starts : List α} (forest : Forest below starts)
    (all : List α) (within : ∀ entry, Reaches below starts entry → entry ∈ all) :
    Settled below all.length starts := by
  have contained : sweep below all.length starts ⊆ all :=
    fun entry listed => within entry (reaches_of_mem_sweep listed)
  exact List.Nodup.length_le_of_subset (forest.sweep_nodup all.length) contained

/-! ### Rising order -/

/-- Keys rise within what lies below an entry, from an entry to what lies below it, and from
what lies below one entry to what lies below a later one. -/
structure Rising (below : α → List α) (key : α → Nat) : Prop where
  within : ∀ upper, (below upper).Pairwise fun first second => key first < key second
  down : ∀ upper, ∀ lower ∈ below upper, key upper < key lower
  across : ∀ first second, key first < key second →
    ∀ lower ∈ below first, ∀ other ∈ below second, key lower < key other

private theorem Rising.reaches_le {below : α → List α} {key : α → Nat} (rising : Rising below key)
    {queue : List α} {entry : α} (reached : Reaches below queue entry) :
    ∃ start ∈ queue, key start ≤ key entry := by
  obtain ⟨start, member, path⟩ := reached
  refine ⟨start, member, ?_⟩
  induction path with
  | refl => exact Nat.le_refl _
  | tail _ nested ih => exact Nat.le_trans ih (Nat.le_of_lt (rising.down _ _ nested))

/-- A queue in rising order that ends before all that lies below it is worked off in rising
order. -/
theorem Rising.sweep_pairwise {below : α → List α} {key : α → Nat} (rising : Rising below key)
    (fuel : Nat) {queue : List α}
    (sorted : queue.Pairwise fun first second => key first < key second)
    (ahead : ∀ upper ∈ queue, ∀ lower ∈ below upper, ∀ entry ∈ queue, key entry < key lower) :
    (sweep below fuel queue).Pairwise fun first second => key first < key second := by
  -- the queue stays in rising order and ahead of all that lies below it
  induction fuel generalizing queue with
  | zero => simpa using sorted
  | succ fuel ih =>
      cases queue with
      | nil => simp
      | cons head queue =>
          obtain ⟨headFirst, queueSorted⟩ := List.pairwise_cons.mp sorted
          have belowHead : ∀ lower ∈ below head, ∀ entry ∈ queue, key entry < key lower :=
            fun lower nested entry waiting =>
              ahead head List.mem_cons_self lower nested entry (List.mem_cons_of_mem _ waiting)
          have nextSorted : (queue ++ below head).Pairwise
              fun first second => key first < key second :=
            List.pairwise_append.mpr ⟨queueSorted, rising.within head,
              fun entry waiting lower nested => belowHead lower nested entry waiting⟩
          have afterHead : ∀ entry ∈ queue ++ below head, key head < key entry := by
            intro entry member
            rcases List.mem_append.mp member with waiting | nested
            · exact headFirst entry waiting
            · exact rising.down head entry nested
          rw [sweep]
          refine List.pairwise_cons.mpr ⟨?_, ih nextSorted ?_⟩
          · intro entry listed
            obtain ⟨start, member, least⟩ := rising.reaches_le (reaches_of_mem_sweep listed)
            exact Nat.lt_of_lt_of_le (afterHead start member) least
          · intro upper member lower nested entry present
            rcases List.mem_append.mp present with waiting | nestedEntry
            · rcases List.mem_append.mp member with waitingUpper | nestedUpper
              · exact ahead upper (List.mem_cons_of_mem _ waitingUpper) lower nested entry
                  (List.mem_cons_of_mem _ waiting)
              · exact Nat.lt_trans (belowHead upper nestedUpper entry waiting)
                  (rising.down upper lower nested)
            · exact rising.across head upper (afterHead upper member) entry nestedEntry lower nested

end SdkClients
