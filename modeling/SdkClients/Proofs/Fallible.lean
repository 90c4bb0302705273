import Mathlib.Data.List.Forall2

set_option autoImplicit false

/-! Chains of steps that may fail: a chain succeeds when every step does, and otherwise ends
with the first failure. -/

namespace SdkClients

variable {ε α β : Type}

private theorem exists_error_iff_not_ok {result : Except ε α} :
    (∃ failure, result = .error failure) ↔ ¬ ∃ value, result = .ok value := by
  cases result <;> simp

theorem exists_ok_iff_not_error {result : Except ε α} :
    (∃ value, result = .ok value) ↔ ¬ ∃ failure, result = .error failure := by
  cases result <;> simp

theorem bind_eq_ok_iff {first : Except ε α} {next : α → Except ε β} {result : β} :
    (first >>= next) = .ok result ↔ ∃ value, first = .ok value ∧ next value = .ok result := by
  cases first <;> simp [bind, Except.bind]

theorem pure_eq_ok_iff {value result : α} :
    (pure value : Except ε α) = .ok result ↔ value = result := by
  simp [pure, Except.pure]

theorem mapM_eq_ok_iff {step : α → Except ε β} {entries : List α} {results : List β} :
    entries.mapM step = .ok results ↔
      List.Forall₂ (fun entry result => step entry = .ok result) entries results := by
  induction entries generalizing results with
  | nil => rw [List.forall₂_nil_left_iff, List.mapM_nil, pure_eq_ok_iff, eq_comm]
  | cons entry entries ih =>
      rw [List.mapM_cons, List.forall₂_cons_left_iff]
      simp only [bind_eq_ok_iff, pure_eq_ok_iff, ih]
      constructor
      · rintro ⟨first, made, others, later, rfl⟩
        exact ⟨first, others, made, later, rfl⟩
      · rintro ⟨first, others, made, later, rfl⟩
        exact ⟨first, made, others, later, rfl⟩

theorem exists_mapM_eq_ok_iff {step : α → Except ε β} {entries : List α} :
    (∃ results, entries.mapM step = .ok results) ↔
      ∀ entry ∈ entries, ∃ result, step entry = .ok result := by
  induction entries with
  | nil => simp [pure_eq_ok_iff]
  | cons entry entries ih =>
      rw [List.forall_mem_cons, ← ih]
      simp only [List.mapM_cons, bind_eq_ok_iff, pure_eq_ok_iff]
      constructor
      · rintro ⟨_, first, made, others, later, -⟩
        exact ⟨⟨first, made⟩, others, later⟩
      · rintro ⟨⟨first, made⟩, others, later⟩
        exact ⟨_, first, made, others, later, rfl⟩

/-- A chain over a list fails with the first entry that does. -/
theorem mapM_eq_error_iff {step : α → Except ε β} {entries : List α} {failure : ε} :
    entries.mapM step = .error failure ↔
      ∃ before entry after, entries = before ++ entry :: after ∧
        (∀ earlier ∈ before, ∃ result, step earlier = .ok result) ∧
        step entry = .error failure := by
  induction entries with
  | nil => simp [pure, Except.pure]
  | cons head tail ih =>
      rw [List.mapM_cons]
      cases made : step head with
      | error reason =>
          constructor
          · intro failed
            cases failed
            exact ⟨[], head, tail, rfl, by simp, made⟩
          · rintro ⟨before, entry, after, same, fine, failed⟩
            cases before with
            | nil =>
                obtain ⟨rfl, rfl⟩ := List.cons.inj same
                rw [made] at failed
                cases failed
                rfl
            | cons first before =>
                obtain ⟨rfl, -⟩ := List.cons.inj same
                obtain ⟨result, success⟩ := fine _ List.mem_cons_self
                rw [made] at success
                cases success
      | ok result =>
          have shorter : (do
              let others ← tail.mapM step
              pure (result :: others)) = Except.error failure ↔
              tail.mapM step = .error failure := by
            cases tail.mapM step <;> simp [bind, Except.bind, pure, Except.pure]
          refine shorter.trans (ih.trans ?_)
          constructor
          · rintro ⟨before, entry, after, rfl, fine, failed⟩
            refine ⟨head :: before, entry, after, rfl, ?_, failed⟩
            exact List.forall_mem_cons.mpr ⟨⟨result, made⟩, fine⟩
          · rintro ⟨before, entry, after, same, fine, failed⟩
            cases before with
            | nil =>
                obtain ⟨rfl, rfl⟩ := List.cons.inj same
                rw [made] at failed
                cases failed
            | cons first before =>
                obtain ⟨rfl, rfl⟩ := List.cons.inj same
                exact ⟨before, entry, after, rfl, (List.forall_mem_cons.mp fine).2, failed⟩

theorem exists_mapM_eq_error_iff {step : α → Except ε β} {entries : List α} :
    (∃ failure, entries.mapM step = .error failure) ↔
      ∃ entry ∈ entries, ∃ failure, step entry = .error failure := by
  rw [exists_error_iff_not_ok, exists_mapM_eq_ok_iff]
  simp only [exists_error_iff_not_ok, not_forall, exists_prop]

theorem map_eq_ok_iff {first : Except ε α} {f : α → β} {result : β} :
    first.map f = .ok result ↔ ∃ value, first = .ok value ∧ f value = result := by
  cases first <;> simp [Except.map]

theorem exists_map_eq_ok_iff {first : Except ε α} {f : α → β} :
    (∃ result, first.map f = .ok result) ↔ ∃ value, first = .ok value := by
  cases first <;> simp [Except.map]

theorem mapError_eq_ok_iff {δ : Type} {first : Except ε α} {f : ε → δ} {result : α} :
    first.mapError f = .ok result ↔ first = .ok result := by
  cases first <;> simp [Except.mapError]

theorem map_eq_error_iff {first : Except ε α} {f : α → β} {failure : ε} :
    first.map f = .error failure ↔ first = .error failure := by
  cases first <;> simp [Except.map]

theorem mapError_eq_error_iff {δ : Type} {first : Except ε α} {f : ε → δ} {failure : δ} :
    first.mapError f = .error failure ↔ ∃ reason, first = .error reason ∧ f reason = failure := by
  cases first <;> simp [Except.mapError]

theorem bind_eq_error_iff {first : Except ε α} {next : α → Except ε β} {failure : ε} :
    (first >>= next) = .error failure ↔
      first = .error failure ∨ ∃ value, first = .ok value ∧ next value = .error failure := by
  cases first <;> simp [bind, Except.bind]

theorem exists_bind_eq_error_iff {first : Except ε α} {next : α → Except ε β} :
    (∃ failure, (first >>= next) = .error failure) ↔
      (∃ failure, first = .error failure) ∨
        ∃ value, first = .ok value ∧ ∃ failure, next value = .error failure := by
  cases first <;> simp [bind, Except.bind]

theorem exists_map_eq_error_iff {first : Except ε α} {f : α → β} :
    (∃ failure, first.map f = .error failure) ↔ ∃ failure, first = .error failure := by
  cases first <;> simp [Except.map]

theorem exists_mapError_eq_error_iff {δ : Type} {first : Except ε α} {f : ε → δ} :
    (∃ failure, first.mapError f = .error failure) ↔ ∃ failure, first = .error failure := by
  cases first <;> simp [Except.mapError]

theorem toOption_eq_some_iff {result : Except ε α} {value : α} :
    result.toOption = some value ↔ result = .ok value := by
  cases result <;> simp [Except.toOption]

theorem toOption_map {result : Except ε α} {f : α → β} :
    (result.map f).toOption = result.toOption.map f := by
  cases result <;> rfl

theorem toOption_mapError {δ : Type} {result : Except ε α} {f : ε → δ} :
    (result.mapError f).toOption = result.toOption := by
  cases result <;> rfl

theorem toOption_bind {result : Except ε α} {next : α → Except ε β} :
    (result >>= next).toOption = result.toOption.bind fun value => (next value).toOption := by
  cases result <;> rfl

@[simp] theorem ok_bind (value : α) (next : α → Except ε β) :
    (Except.ok value >>= next) = next value := rfl

@[simp] theorem error_bind (failure : ε) (next : α → Except ε β) :
    (Except.error failure >>= next) = .error failure := rfl

@[simp] theorem throw_eq_error (failure : ε) :
    (throw failure : Except ε α) = .error failure := rfl

end SdkClients
