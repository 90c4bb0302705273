import SdkClients.Proofs.Fallible

set_option autoImplicit false

/-!
Lists that are gathered from lists, in steps that may fail.

What is gathered from two lists together is gathered from each of them and put one behind the other,
so it is there exactly if both parts are. Steps with this property can be chained. A chain fails
exactly if its first step does, or the next one on a single entry in between.
-/

namespace SdkClients

variable {ε δ α β γ : Type}

def Gathers (gather : List α → Except ε (List β)) : Prop :=
  ∀ first second results, gather (first ++ second) = .ok results ↔
    ∃ early late, gather first = .ok early ∧ gather second = .ok late ∧ results = early ++ late

theorem gathers_mapM (step : α → Except ε β) : Gathers fun entries => entries.mapM step := by
  intro first second results
  simp only [List.mapM_append, bind_eq_ok_iff, pure_eq_ok_iff]
  constructor
  · rintro ⟨early, before, late, after, rfl⟩
    exact ⟨early, late, before, after, rfl⟩
  · rintro ⟨early, late, before, after, rfl⟩
    exact ⟨early, before, late, after, rfl⟩

namespace Gathers

variable {gather : List α → Except ε (List β)}

theorem bind {next : List β → Except ε (List γ)} (gathers : Gathers gather)
    (nextGathers : Gathers next) : Gathers fun entries => gather entries >>= next := by
  intro first second results
  simp only [bind_eq_ok_iff, gathers first second]
  constructor
  · rintro ⟨_, ⟨early, late, before, after, rfl⟩, made⟩
    obtain ⟨front, back, frontMade, backMade, rfl⟩ := (nextGathers _ _ _).mp made
    exact ⟨front, back, ⟨early, before, frontMade⟩, ⟨late, after, backMade⟩, rfl⟩
  · rintro ⟨front, back, ⟨early, before, frontMade⟩, ⟨late, after, backMade⟩, rfl⟩
    exact ⟨_, ⟨early, late, before, after, rfl⟩,
      (nextGathers _ _ _).mpr ⟨front, back, frontMade, backMade, rfl⟩⟩

theorem mapError (gathers : Gathers gather) (f : ε → δ) :
    Gathers fun entries => (gather entries).mapError f := by
  intro first second results
  simp only [mapError_eq_ok_iff]
  exact gathers first second results

theorem exists_ok_iff (gathers : Gathers gather) (first second : List α) :
    (∃ results, gather (first ++ second) = .ok results) ↔
      (∃ results, gather first = .ok results) ∧ ∃ results, gather second = .ok results := by
  simp only [gathers first second]
  constructor
  · rintro ⟨_, early, late, before, after, rfl⟩
    exact ⟨⟨early, before⟩, late, after⟩
  · rintro ⟨⟨early, before⟩, late, after⟩
    exact ⟨_, early, late, before, after, rfl⟩

end Gathers

theorem mem_mapM {step : α → Except ε β} {entries : List α} {results : List β}
    (made : entries.mapM step = .ok results) {result : β} :
    result ∈ results ↔ ∃ entry ∈ entries, step entry = .ok result := by
  rw [mapM_eq_ok_iff] at made
  induction made with
  | nil => simp
  | cons first _ ih => simp [ih, first, eq_comm]

/-- The lists of all entries, one behind the other. -/
def gatherEach (step : α → Except ε (List β)) (entries : List α) : Except ε (List β) := do
  let lists ← entries.mapM step
  return lists.flatten

variable {step : α → Except ε (List β)}

theorem gatherEach_singleton (step : α → Except ε (List β)) (entry : α) :
    gatherEach step [entry] = step entry := by
  unfold gatherEach
  rw [List.mapM_cons, List.mapM_nil]
  cases step entry with
  | error failure => rfl
  | ok list => exact congrArg Except.ok (List.append_nil list)

theorem gathers_gatherEach (step : α → Except ε (List β)) : Gathers (gatherEach step) := by
  refine (gathers_mapM step).bind ?_
  intro first second results
  simp only [pure_eq_ok_iff, List.flatten_append]
  constructor
  · rintro rfl
    exact ⟨_, _, rfl, rfl, rfl⟩
  · rintro ⟨_, _, rfl, rfl, rfl⟩
    rfl

theorem mem_gatherEach {entries : List α} {results : List β}
    (gathered : gatherEach step entries = .ok results) {result : β} :
    result ∈ results ↔ ∃ entry ∈ entries, ∃ list, step entry = .ok list ∧ result ∈ list := by
  unfold gatherEach at gathered
  simp only [bind_eq_ok_iff, pure_eq_ok_iff] at gathered
  obtain ⟨lists, made, rfl⟩ := gathered
  simp only [List.mem_flatten, mem_mapM made]
  constructor
  · rintro ⟨list, ⟨entry, member, own⟩, inside⟩
    exact ⟨entry, member, list, own, inside⟩
  · rintro ⟨entry, member, list, own, inside⟩
    exact ⟨list, ⟨entry, member, own⟩, inside⟩

theorem exists_gatherEach_eq_error_iff {entries : List α} :
    (∃ failure, gatherEach step entries = .error failure) ↔
      ∃ entry ∈ entries, ∃ failure, step entry = .error failure := by
  unfold gatherEach
  rw [exists_bind_eq_error_iff, exists_mapM_eq_error_iff]
  simp [pure, Except.pure]

theorem exists_of_gatherEach {entries : List α} {results : List β}
    (gathered : gatherEach step entries = .ok results) {entry : α} (member : entry ∈ entries) :
    ∃ list, step entry = .ok list := by
  rw [exists_ok_iff_not_error]
  intro failed
  obtain ⟨failure, stopped⟩ := exists_gatherEach_eq_error_iff.mpr ⟨entry, member, failed⟩
  cases gathered.symm.trans stopped

/-- What stands between two steps counts entry by entry. -/
theorem exists_chain_eq_error_iff {first : Except ε (List α)} {next : List α → Except ε β}
    {Stands Fails : α → Prop}
    (stands : ∀ entries, first = .ok entries → ∀ entry, entry ∈ entries ↔ Stands entry)
    (fails : ∀ entries, (∃ failure, next entries = .error failure) ↔
      ∃ entry ∈ entries, Fails entry) :
    (∃ failure, (first >>= next) = .error failure) ↔
      (∃ failure, first = .error failure) ∨ ∃ entry, Stands entry ∧ Fails entry := by
  rw [exists_bind_eq_error_iff]
  simp only [fails]
  cases first with
  | error failure => simp
  | ok entries => simp [stands entries rfl]

end SdkClients
