import Mathlib.Data.List.Forall2

set_option autoImplicit false

/-! Lists that are related entry by entry, and look-ups in them. -/

namespace SdkClients

variable {α β γ : Type} {R : α → β → Prop}

theorem find?_forall₂ {p : α → Bool} {q : β → Bool}
    (alike : ∀ left right, R left right → p left = q right) {lefts : List α} {rights : List β}
    (related : List.Forall₂ R lefts rights) :
    Option.Rel R (lefts.find? p) (rights.find? q) := by
  induction related with
  | nil => exact .none
  | @cons left right _ _ first _ ih =>
      rw [List.find?_cons, List.find?_cons, alike left right first]
      cases q right with
      | false => exact ih
      | true => exact .some first

theorem filter_forall₂ {p : α → Bool} {q : β → Bool}
    (alike : ∀ left right, R left right → p left = q right) {lefts : List α} {rights : List β}
    (related : List.Forall₂ R lefts rights) :
    List.Forall₂ R (lefts.filter p) (rights.filter q) :=
  List.rel_filter (fun left right same => Bool.eq_iff_iff.mp (alike left right same)) related

theorem getElem?_forall₂ {lefts : List α} {rights : List β}
    (related : List.Forall₂ R lefts rights) (position : Nat) :
    Option.Rel R lefts[position]? rights[position]? := by
  induction related generalizing position with
  | nil => exact .none
  | cons first _ ih =>
      cases position with
      | zero => exact .some first
      | succ position => exact ih position

theorem map_eq_of_forall₂ {f : α → γ} {g : β → γ}
    (alike : ∀ left right, R left right → f left = g right) {lefts : List α} {rights : List β}
    (related : List.Forall₂ R lefts rights) : lefts.map f = rights.map g := by
  induction related with
  | nil => rfl
  | cons first _ ih => rw [List.map_cons, List.map_cons, alike _ _ first, ih]

theorem map_eq_of_rel {f : α → γ} {g : β → γ}
    (alike : ∀ left right, R left right → f left = g right) {left : Option α} {right : Option β}
    (related : Option.Rel R left right) : left.map f = right.map g := by
  cases related with
  | none => rfl
  | some first => exact congrArg some (alike _ _ first)

theorem forall₂_of_mem {lefts : List α} {rights : List β} (related : List.Forall₂ R lefts rights) :
    List.Forall₂ (fun left right => left ∈ lefts ∧ right ∈ rights ∧ R left right) lefts rights := by
  induction related with
  | nil => exact .nil
  | cons first _ ih =>
      refine .cons ⟨List.mem_cons_self, List.mem_cons_self, first⟩ (ih.imp ?_)
      rintro left right ⟨member, another, alike⟩
      exact ⟨List.mem_cons_of_mem _ member, List.mem_cons_of_mem _ another, alike⟩

theorem isEmpty_eq_of_forall₂ {lefts : List α} {rights : List β}
    (related : List.Forall₂ R lefts rights) : lefts.isEmpty = rights.isEmpty := by
  cases related <;> rfl

theorem exists_mem_zip_of_forall₂ {lefts : List α} {rights : List β}
    (related : List.Forall₂ R lefts rights) {left : α} (member : left ∈ lefts) :
    ∃ right, (left, right) ∈ lefts.zip rights := by
  induction related with
  | nil => cases member
  | @cons head partner _ _ _ _ ih =>
      rcases List.mem_cons.mp member with rfl | later
      · exact ⟨partner, List.mem_cons_self⟩
      · obtain ⟨right, paired⟩ := ih later
        exact ⟨right, List.mem_cons_of_mem _ paired⟩

/-- Entries that are related to the same results are related to each other. -/
theorem forall₂_of_common {S : α → γ → Prop} {T : β → γ → Prop}
    {lefts : List α} {rights : List β} {results : List γ}
    (left : List.Forall₂ S lefts results) (right : List.Forall₂ T rights results) :
    List.Forall₂ (fun first second => ∃ result, S first result ∧ T second result) lefts rights := by
  induction left generalizing rights with
  | nil =>
      cases right
      exact .nil
  | cons first _ ih =>
      cases right with
      | cons second others => exact .cons ⟨_, first, second⟩ (ih others)

theorem exists_forall₂_of_each {entries : List α}
    (each : ∀ entry ∈ entries, ∃ result, R entry result) :
    ∃ results, List.Forall₂ R entries results := by
  induction entries with
  | nil => exact ⟨[], .nil⟩
  | cons entry entries ih =>
      obtain ⟨⟨result, first⟩, later⟩ := List.forall_mem_cons.mp each
      obtain ⟨results, others⟩ := ih later
      exact ⟨result :: results, .cons first others⟩

theorem mapM_eq_some_iff {f : α → Option β} {entries : List α} {results : List β} :
    entries.mapM f = some results ↔
      List.Forall₂ (fun entry result => f entry = some result) entries results := by
  induction entries generalizing results with
  | nil =>
      rw [List.forall₂_nil_left_iff]
      exact ⟨fun same => (Option.some.inj same).symm, fun same => congrArg some same.symm⟩
  | cons entry entries ih =>
      rw [List.mapM_cons, List.forall₂_cons_left_iff]
      simp only [Option.bind_eq_bind, Option.bind_eq_some_iff, Option.pure_def, Option.some.injEq, ih]
      constructor
      · rintro ⟨first, made, others, later, rfl⟩
        exact ⟨first, others, made, later, rfl⟩
      · rintro ⟨first, others, made, later, rfl⟩
        exact ⟨first, made, others, later, rfl⟩

theorem mapM_congr_of_mem {m : Type → Type} [Monad m] [LawfulMonad m] {f g : α → m β}
    {entries : List α}
    (same : ∀ entry ∈ entries, f entry = g entry) : entries.mapM f = entries.mapM g := by
  induction entries with
  | nil => rfl
  | cons entry entries ih =>
      obtain ⟨sameHead, sameTail⟩ := List.forall_mem_cons.mp same
      rw [List.mapM_cons, List.mapM_cons, sameHead, ih sameTail]

end SdkClients
