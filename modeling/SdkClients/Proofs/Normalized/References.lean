import SdkClients.Proofs.DistinctNames
import SdkClients.Proofs.Nesting

set_option autoImplicit false

/-!
What a plain value remembers of a typed value.

A reference to an enumeration member and the literal of its value, or of its name, have the same
plain value. Nothing else is lost: typed values with the same plain value are the same once every
reference has become a literal, and every plain value comes from a literal.
-/

namespace SdkClients

/-- The literal that a member stands for: its explicit value, or else its name. -/
def EnumMember.literal (member : EnumMember) : TypedValue :=
  match member.value with
  | some (.text text) => .string text
  | some (.number value) => .numeric value
  | none => .string member.name

namespace TypedValue

mutual

/-- The same value with a literal in place of every reference. -/
def resolved : TypedValue → TypedValue
  | .enumMember member => member.literal
  | .array values => .array (resolvedList values)
  | .object properties => .object (resolvedEntries properties)
  | value => value

def resolvedList : List TypedValue → List TypedValue
  | [] => []
  | value :: others => value.resolved :: resolvedList others

def resolvedEntries : List (String × TypedValue) → List (String × TypedValue)
  | [] => []
  | (name, value) :: others => (name, value.resolved) :: resolvedEntries others

end

@[simp] theorem resolvedList_eq_map (values : List TypedValue) :
    resolvedList values = values.map resolved :=
  eq_map_of_cons rfl (fun _ _ => rfl) values

@[simp] theorem resolvedEntries_eq_map (properties : List (String × TypedValue)) :
    resolvedEntries properties = properties.map fun entry => (entry.1, entry.2.resolved) :=
  eq_map_of_cons rfl (fun _ _ => rfl) properties

end TypedValue

namespace Normalized

mutual

/-- The literal with a given plain value. -/
def literal : Normalized → TypedValue
  | .null => .null
  | .bool value => .boolean value
  | .number value => .numeric value
  | .string text => .string text
  | .array items => .array (literalList items)
  | .object entries => .object (literalEntries entries)

def literalList : List Normalized → List TypedValue
  | [] => []
  | item :: others => item.literal :: literalList others

def literalEntries : List (String × Normalized) → List (String × TypedValue)
  | [] => []
  | (name, value) :: others => (name, value.literal) :: literalEntries others

end

@[simp] theorem literalList_eq_map (items : List Normalized) :
    literalList items = items.map literal :=
  eq_map_of_cons rfl (fun _ _ => rfl) items

@[simp] theorem literalEntries_eq_map (entries : List (String × Normalized)) :
    literalEntries entries = entries.map fun entry => (entry.1, entry.2.literal) :=
  eq_map_of_cons rfl (fun _ _ => rfl) entries

private theorem ofTyped_literal (value : Normalized) : ofTyped value.literal = value := by
  induction value with
  | null | bool | number | string => rfl
  | array items ih =>
      rw [literal, ofTyped, literalList_eq_map, ofTypedList_eq_map, map_map_eq_self ih]
  | object entries ih =>
      rw [literal, ofTyped, literalEntries_eq_map, ofTypedEntries_eq_map,
        map_map_entries_eq_self ih]

private theorem literal_ofEnumMember (member : EnumMember) :
    (ofEnumMember member).literal = member.literal := by
  rw [ofEnumMember, EnumMember.literal]
  cases member.value with
  | none => rfl
  | some value => cases value <;> rfl

/-- Normalizing forgets the references, and no more than them. -/
private theorem literal_ofTyped (value : TypedValue) :
    (ofTyped value).literal = value.resolved := by
  induction value with
  | string | boolean | null | numeric => rfl
  | enumMember member => exact literal_ofEnumMember member
  | array values ih =>
      rw [ofTyped, literal, TypedValue.resolved, ofTypedList_eq_map, literalList_eq_map,
        TypedValue.resolvedList_eq_map, List.map_map]
      exact congrArg TypedValue.array (List.map_congr_left ih)
  | object properties ih =>
      rw [ofTyped, literal, TypedValue.resolved, ofTypedEntries_eq_map, literalEntries_eq_map,
        TypedValue.resolvedEntries_eq_map, List.map_map]
      refine congrArg TypedValue.object (List.map_congr_left fun property member => ?_)
      exact Prod.ext rfl (ih property member)

private theorem ofTyped_resolved (value : TypedValue) : ofTyped value.resolved = ofTyped value := by
  rw [← literal_ofTyped, ofTyped_literal]

private theorem distinctNames_literal_iff (value : Normalized) :
    value.literal.DistinctNames ↔ value.DistinctNames := by
  induction value with
  | null => exact iff_of_true .null .null
  | bool value => exact iff_of_true (.boolean value) (.bool value)
  | number value => exact iff_of_true (.numeric value) (.number value)
  | string text => exact iff_of_true (.string text) (.string text)
  | array items ih =>
      rw [literal, literalList_eq_map, TypedValue.distinctNames_array_iff, distinctNames_array_iff,
        List.forall_mem_map]
      exact forall₂_congr ih
  | object entries ih =>
      rw [literal, literalEntries_eq_map, TypedValue.distinctNames_object_iff,
        distinctNames_object_iff, Keyed.distinct_map_iff, List.forall_mem_map]
      exact and_congr_right fun _ => forall₂_congr ih

/-- Two typed values have the same plain value exactly when they agree after every reference has
been replaced by the literal it stands for; and every plain value, with distinct names if it has
distinct names, is the plain value of a typed value. -/
theorem ofTyped_keepsAllButReferences :
    (∀ left right : TypedValue, ofTyped left = ofTyped right ↔ left.resolved = right.resolved) ∧
      ∀ value : Normalized, ∃ source : TypedValue,
        ofTyped source = value ∧ (source.DistinctNames ↔ value.DistinctNames) := by
  constructor
  · intro left right
    constructor
    · intro same
      rw [← literal_ofTyped, ← literal_ofTyped, same]
    · intro same
      rw [← ofTyped_resolved left, ← ofTyped_resolved right, same]
  · intro value
    exact ⟨value.literal, ofTyped_literal value, distinctNames_literal_iff value⟩

end Normalized

end SdkClients
