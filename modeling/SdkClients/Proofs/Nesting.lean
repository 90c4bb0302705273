import SdkClients.Encode
import SdkClients.Normalized

set_option autoImplicit false

/-!
Values inside values.

Document values, plain values and typed values each hold lists of their own kind and lists of named
entries. Induction over such a value supposes the claim for every item and every entry. The
functions on lists and entries are the functions on values applied to each of them.
-/

namespace SdkClients

/-- A function on lists that goes from entry to entry. -/
theorem eq_map_of_cons {α β : Type} {f : α → β} {g : List α → List β} (nil : g [] = [])
    (cons : ∀ entry entries, g (entry :: entries) = f entry :: g entries) (entries : List α) :
    g entries = entries.map f := by
  induction entries with
  | nil => exact nil
  | cons entry entries ih => rw [cons, ih, List.map_cons]

theorem eq_flatMap_of_cons {α β : Type} {f : α → List β} {g : List α → List β} (nil : g [] = [])
    (cons : ∀ entry entries, g (entry :: entries) = f entry ++ g entries) (entries : List α) :
    g entries = entries.flatMap f := by
  induction entries with
  | nil => exact nil
  | cons entry entries ih => rw [cons, ih, List.flatMap_cons]

/-- What is done to every item can be undone item by item. -/
theorem map_map_eq_self {α β : Type} {f : α → β} {g : β → α} {items : List α}
    (undone : ∀ item ∈ items, g (f item) = item) : (items.map f).map g = items := by
  rw [List.map_map]
  exact (List.map_congr_left undone).trans (List.map_id items)

theorem map_map_entries_eq_self {α β : Type} {f : α → β} {g : β → α}
    {entries : List (String × α)} (undone : ∀ entry ∈ entries, g (f entry.2) = entry.2) :
    (entries.map fun entry => (entry.1, f entry.2)).map (fun entry => (entry.1, g entry.2)) =
      entries := by
  refine map_map_eq_self fun entry member => ?_
  exact Prod.ext rfl (undone entry member)

/-! ### Document values -/

namespace Json.Value

@[elab_as_elim, induction_eliminator]
theorem nestedInduction {motive : Value → Prop} (null : motive .null)
    (bool : ∀ value, motive (.bool value)) (number : ∀ value, motive (.number value))
    (string : ∀ text, motive (.string text))
    (array : ∀ items, (∀ item ∈ items, motive item) → motive (.array items))
    (object : ∀ entries, (∀ entry ∈ entries, motive entry.2) → motive (.object entries)) :
    ∀ value, motive value :=
  @Value.rec motive (fun items => ∀ item ∈ items, motive item)
    (fun entries => ∀ entry ∈ entries, motive entry.2) (fun entry => motive entry.2)
    null bool number string array object
    (List.forall_mem_nil _) (fun _ _ head tail => List.forall_mem_cons.mpr ⟨head, tail⟩)
    (List.forall_mem_nil _) (fun _ _ head tail => List.forall_mem_cons.mpr ⟨head, tail⟩)
    (fun _ _ value => value)

@[simp] theorem renderItems_eq_map (items : List Value) : renderItems items = items.map render :=
  eq_map_of_cons rfl (fun _ _ => rfl) items

@[simp] theorem renderEntries_eq_map (entries : List (String × Value)) :
    renderEntries entries =
      entries.map fun entry => renderString entry.1 ++ ":" ++ entry.2.render :=
  eq_map_of_cons rfl (fun _ _ => rfl) entries

end Json.Value

/-! ### Plain values -/

namespace Normalized

@[elab_as_elim, induction_eliminator]
theorem nestedInduction {motive : Normalized → Prop} (null : motive .null)
    (bool : ∀ value, motive (.bool value)) (number : ∀ value, motive (.number value))
    (string : ∀ text, motive (.string text))
    (array : ∀ items, (∀ item ∈ items, motive item) → motive (.array items))
    (object : ∀ entries, (∀ entry ∈ entries, motive entry.2) → motive (.object entries)) :
    ∀ value, motive value :=
  @Normalized.rec motive (fun items => ∀ item ∈ items, motive item)
    (fun entries => ∀ entry ∈ entries, motive entry.2) (fun entry => motive entry.2)
    null bool number string array object
    (List.forall_mem_nil _) (fun _ _ head tail => List.forall_mem_cons.mpr ⟨head, tail⟩)
    (List.forall_mem_nil _) (fun _ _ head tail => List.forall_mem_cons.mpr ⟨head, tail⟩)
    (fun _ _ value => value)

@[simp] theorem ofTypedList_eq_map (values : List TypedValue) :
    ofTypedList values = values.map ofTyped :=
  eq_map_of_cons rfl (fun _ _ => rfl) values

@[simp] theorem ofTypedEntries_eq_map (properties : List (String × TypedValue)) :
    ofTypedEntries properties = properties.map fun entry => (entry.1, ofTyped entry.2) :=
  eq_map_of_cons rfl (fun _ _ => rfl) properties

@[simp] theorem ofJsonList_eq_map (items : List Json.Value) : ofJsonList items = items.map ofJson :=
  eq_map_of_cons rfl (fun _ _ => rfl) items

@[simp] theorem ofJsonEntries_eq_map (entries : List (String × Json.Value)) :
    ofJsonEntries entries = entries.map fun entry => (entry.1, ofJson entry.2) :=
  eq_map_of_cons rfl (fun _ _ => rfl) entries

@[simp] theorem toJsonList_eq_map (items : List Normalized) : toJsonList items = items.map toJson :=
  eq_map_of_cons rfl (fun _ _ => rfl) items

@[simp] theorem toJsonEntries_eq_map (entries : List (String × Normalized)) :
    toJsonEntries entries = entries.map fun entry => (entry.1, entry.2.toJson) :=
  eq_map_of_cons rfl (fun _ _ => rfl) entries

@[simp] theorem renderList_eq_map (items : List Normalized) : renderList items = items.map render :=
  eq_map_of_cons rfl (fun _ _ => rfl) items

@[simp] theorem renderEntries_eq_map (entries : List (String × Normalized)) :
    renderEntries entries =
      entries.map fun entry => Json.renderString entry.1 ++ ":" ++ entry.2.render :=
  eq_map_of_cons rfl (fun _ _ => rfl) entries

end Normalized

/-! ### Typed values -/

namespace TypedValue

@[elab_as_elim, induction_eliminator]
theorem nestedInduction {motive : TypedValue → Prop} (string : ∀ value, motive (.string value))
    (boolean : ∀ value, motive (.boolean value)) (null : motive .null)
    (numeric : ∀ value, motive (.numeric value))
    (enumMember : ∀ member, motive (.enumMember member))
    (array : ∀ values, (∀ value ∈ values, motive value) → motive (.array values))
    (object : ∀ properties, (∀ property ∈ properties, motive property.2) →
      motive (.object properties)) :
    ∀ value, motive value :=
  @TypedValue.rec motive (fun values => ∀ value ∈ values, motive value)
    (fun properties => ∀ property ∈ properties, motive property.2) (fun entry => motive entry.2)
    string boolean null numeric enumMember array object
    (List.forall_mem_nil _) (fun _ _ head tail => List.forall_mem_cons.mpr ⟨head, tail⟩)
    (List.forall_mem_nil _) (fun _ _ head tail => List.forall_mem_cons.mpr ⟨head, tail⟩)
    (fun _ _ value => value)

@[simp] theorem listToJson_eq_map (values : List TypedValue) :
    listToJson values = values.map toJson :=
  eq_map_of_cons rfl (fun _ _ => rfl) values

@[simp] theorem entriesToJson_eq_map (properties : List (String × TypedValue)) :
    entriesToJson properties = properties.map fun entry => (entry.1, entry.2.toJson) :=
  eq_map_of_cons rfl (fun _ _ => rfl) properties

end TypedValue

end SdkClients
