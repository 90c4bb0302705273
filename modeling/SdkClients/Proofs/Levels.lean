import SdkClients.Proofs.Sweep

set_option autoImplicit false

/-!
Sweeps level by level.

What lies right below an entry is one level of its family, and what lies right below that level
is the next one. Families side by side are read level by level, each level from the first family
to the last. A sweep lists its queue and then the levels of the families of its entries.
-/

namespace SdkClients

variable {α : Type}

/-- Two families side by side. -/
def abreast : List (List α) → List (List α) → List (List α)
  | [], others => others
  | level :: levels, [] => level :: levels
  | level :: levels, other :: others => (level ++ other) :: abreast levels others

def together (families : List (List (List α))) : List (List α) := families.foldr abreast []

@[simp] theorem abreast_nil (levels : List (List α)) : abreast levels [] = levels := by
  cases levels <;> rfl

@[simp] theorem together_nil : together ([] : List (List (List α))) = [] := rfl

@[simp] theorem together_cons (family : List (List α)) (families : List (List (List α))) :
    together (family :: families) = abreast family (together families) := rfl

private theorem abreast_assoc (first second third : List (List α)) :
    abreast (abreast first second) third = abreast first (abreast second third) := by
  induction first generalizing second third with
  | nil => rfl
  | cons level levels ih =>
      cases second with
      | nil => rfl
      | cons other others =>
          cases third with
          | nil => rfl
          | cons last lasts => simp only [abreast, ih, List.append_assoc]

theorem together_append (first second : List (List (List α))) :
    together (first ++ second) = abreast (together first) (together second) := by
  induction first with
  | nil => rfl
  | cons family first ih =>
      rw [List.cons_append, together_cons, together_cons, ih, abreast_assoc]

private theorem together_flatMap {β : Type} (entries : List β)
    (families : β → List (List (List α))) :
    together (entries.flatMap families) =
      together (entries.map fun entry => together (families entry)) := by
  induction entries with
  | nil => rfl
  | cons entry entries ih =>
      rw [List.flatMap_cons, together_append, ih, List.map_cons, together_cons]

/-- Families that begin with their own entry have all these entries on their first level. -/
private theorem together_headed (levels : α → List (List α)) (entry : α) (entries : List α) :
    together ((entry :: entries).map fun entry => [entry] :: levels entry) =
      (entry :: entries) :: together ((entry :: entries).map levels) := by
  induction entries generalizing entry with
  | nil => simp
  | cons next entries ih =>
      have later := ih next
      rw [List.map_cons, together_cons, later, abreast, List.map_cons, together_cons]
      rfl

private theorem flatten_together_headed (levels : α → List (List α)) (entries : List α) :
    (together (entries.map fun entry => [entry] :: levels entry)).flatten =
      entries ++ (together (entries.map levels)).flatten := by
  cases entries with
  | nil => rfl
  | cons entry entries => rw [together_headed, List.flatten_cons]

/-! ### Sweeps -/

theorem Settled.split {below : α → List α} {fuel : Nat} {queue : List α}
    (settled : Settled below fuel queue) :
    ∃ rest, fuel = rest + queue.length ∧ Settled below rest (queue.flatMap below) ∧
      sweep below fuel queue = queue ++ sweep below rest (queue.flatMap below) := by
  have enough : queue.length ≤ fuel := by
    have total : (sweep below fuel queue).length ≤ fuel := settled
    rw [sweep_eq_queue_append, List.length_append] at total
    omega
  obtain ⟨rest, rfl⟩ : ∃ rest, fuel = rest + queue.length := ⟨fuel - queue.length, by omega⟩
  have taken := sweep_append below rest queue []
  rw [List.append_nil, List.nil_append] at taken
  refine ⟨rest, rfl, ?_, taken⟩
  unfold Settled at settled ⊢
  rw [taken, List.length_append] at settled
  omega

variable {below : α → List α} {levels : α → List (List α)}

private theorem Settled.eq_levels
    (unfolds : ∀ entry, levels entry =
      together ((below entry).map fun lower => [lower] :: levels lower))
    {fuel : Nat} {queue : List α} (settled : Settled below fuel queue) :
    sweep below fuel queue = queue ++ (together (queue.map levels)).flatten := by
  -- one level is taken off at a time, so the fuel falls by the length of the queue
  induction fuel using Nat.strongRecOn generalizing queue with
  | ind fuel ih =>
      cases queue with
      | nil => simp
      | cons head tail =>
          obtain ⟨rest, same, settledRest, taken⟩ := settled.split
          have fewer : rest < fuel := by
            rw [same, List.length_cons]
            omega
          have nextLevel : together ((head :: tail).map levels) =
              together (((head :: tail).flatMap below).map fun lower =>
                [lower] :: levels lower) := by
            rw [List.map_flatMap, together_flatMap]
            congr 1
            exact List.map_congr_left fun entry _ => unfolds entry
          rw [taken, ih rest fewer settledRest, nextLevel, flatten_together_headed]

/-- Leaving out entries with nothing below them leaves them out of the levels. -/
theorem Settled.filtered_eq_levels {keep : α → Bool}
    (unfolds : ∀ entry, levels entry =
      together ((below entry).map fun lower => [lower] :: levels lower))
    (leaf : ∀ entry, keep entry = false → below entry = [])
    {fuel : Nat} {queue : List α} (settled : Settled below fuel queue) :
    sweep (fun entry => (below entry).filter keep) fuel queue =
      queue ++ (together (queue.map levels)).flatten.filter keep := by
  have whole := settled.eq_levels unfolds
  obtain ⟨rest, rfl, settledRest, taken⟩ := settled.split
  rw [taken] at whole
  have lower : sweep below rest (queue.flatMap below) = (together (queue.map levels)).flatten :=
    List.append_cancel_left whole
  have kept := sweep_append (fun entry => (below entry).filter keep) rest queue []
  rw [List.append_nil, List.nil_append, ← List.filter_flatMap, ← sweep_filter leaf settledRest,
    lower] at kept
  exact kept

end SdkClients
