import SdkClients.Normalized
import SdkClients.Proofs.DistinctKeys

set_option autoImplicit false

/-!
Plain and typed values in which no name is given twice.

Properties are kept under distinct names, in plain values as well as in literals and models. Values
that are read have this property at every depth.
-/

namespace SdkClients

/-- No object inside a plain value names two entries alike. -/
inductive Normalized.DistinctNames : Normalized → Prop
  | null : DistinctNames .null
  | bool (value : Bool) : DistinctNames (.bool value)
  | number (value : Numeric) : DistinctNames (.number value)
  | string (text : String) : DistinctNames (.string text)
  | array {items : List Normalized} : (∀ item ∈ items, DistinctNames item) →
      DistinctNames (.array items)
  | object {entries : List (String × Normalized)} : Keyed.Distinct entries →
      (∀ entry ∈ entries, DistinctNames entry.2) → DistinctNames (.object entries)

/-- No object literal inside a typed value names two properties alike. -/
inductive TypedValue.DistinctNames : TypedValue → Prop
  | string (value : String) : DistinctNames (.string value)
  | boolean (value : Bool) : DistinctNames (.boolean value)
  | null : DistinctNames .null
  | numeric (value : Numeric) : DistinctNames (.numeric value)
  | enumMember (member : EnumMember) : DistinctNames (.enumMember member)
  | array {values : List TypedValue} : (∀ value ∈ values, DistinctNames value) →
      DistinctNames (.array values)
  | object {properties : List (String × TypedValue)} : Keyed.Distinct properties →
      (∀ property ∈ properties, DistinctNames property.2) → DistinctNames (.object properties)

/-- A model names no two properties alike, and neither does a default. -/
structure ModelDecl.DistinctNames (model : ModelDecl) : Prop where
  properties : Keyed.Distinct model.properties
  defaults : ∀ property ∈ model.properties, ∀ value ∈ property.2.default, value.DistinctNames

theorem Normalized.distinctNames_array_iff {items : List Normalized} :
    (Normalized.array items).DistinctNames ↔ ∀ item ∈ items, item.DistinctNames := by
  refine ⟨fun distinct => ?_, .array⟩
  cases distinct
  assumption

theorem Normalized.distinctNames_object_iff {entries : List (String × Normalized)} :
    (Normalized.object entries).DistinctNames ↔
      Keyed.Distinct entries ∧ ∀ entry ∈ entries, entry.2.DistinctNames := by
  refine ⟨fun distinct => ?_, fun ⟨names, values⟩ => .object names values⟩
  cases distinct with
  | object names values => exact ⟨names, values⟩

theorem TypedValue.distinctNames_array_iff {values : List TypedValue} :
    (TypedValue.array values).DistinctNames ↔ ∀ value ∈ values, value.DistinctNames := by
  refine ⟨fun distinct => ?_, .array⟩
  cases distinct
  assumption

theorem TypedValue.distinctNames_object_iff {properties : List (String × TypedValue)} :
    (TypedValue.object properties).DistinctNames ↔
      Keyed.Distinct properties ∧ ∀ property ∈ properties, property.2.DistinctNames := by
  refine ⟨fun distinct => ?_, fun ⟨names, values⟩ => .object names values⟩
  cases distinct with
  | object names values => exact ⟨names, values⟩

end SdkClients
