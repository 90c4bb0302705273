import SdkClients.Proofs.Nesting

set_option autoImplicit false

/-!
The numbers inside values.

A number of a document has a counterpart among the numbers of literals. Going there and back loses
nothing as long as integers fit 64 bits and reals are finite. `numbers` lists the numbers of a value
from left to right, at every depth; explicit values of enumeration members are among them.
-/

namespace SdkClients

/-- Neither infinite nor not a number. -/
def Json.Number.isFinite : Json.Number → Bool
  | .integer _ => true
  | .real value => value.isFinite

/-- No integer of more than 64 bits. -/
def Json.Number.isShort : Json.Number → Bool
  | .integer value => Numeric.fitsInteger value
  | .real _ => true

namespace Numeric

/-- Neither infinite nor not a number. -/
def isFinite : Numeric → Bool
  | .integer _ => true
  | .real value => value.isFinite

/-- The number of a document with the same value. -/
def toNumber : Numeric → Json.Number
  | .integer value => .integer value.toInt
  | .real value => .real value

theorem fitsInteger_iff (value : Int) :
    fitsInteger value ↔ -Int.pow 2 63 ≤ value ∧ value < Int.pow 2 63 := by
  rw [fitsInteger, Bool.and_eq_true, decide_eq_true_eq, decide_eq_true_eq]

private theorem fitsInteger_toInt (value : Int64) : fitsInteger value.toInt :=
  (fitsInteger_iff _).mpr ⟨value.le_toInt, value.toInt_lt⟩

theorem ofNumber_toNumber (number : Numeric) : ofNumber number.toNumber = number := by
  cases number with
  | integer value => rw [toNumber, ofNumber, if_pos (fitsInteger_toInt value), Int64.ofInt_toInt]
  | real value => rfl

theorem toJson_of_isFinite {number : Numeric} (finite : number.isFinite) :
    number.toJson = .number number.toNumber := by
  cases number with
  | integer value => rfl
  | real value => exact if_pos finite

theorem toJson_ofNumber {number : Json.Number} (finite : number.isFinite)
    (short : number.isShort) : (ofNumber number).toJson = .number number := by
  cases number with
  | integer value =>
      have fits : fitsInteger value := short
      obtain ⟨low, high⟩ := (fitsInteger_iff value).mp fits
      rw [ofNumber, if_pos fits, toJson, Int64.toInt_ofInt_of_le low high]
  | real value => exact if_pos finite

end Numeric

/-! ### Documents -/

namespace Json.Value

mutual

def numbers : Value → List Number
  | .number value => [value]
  | .array items => numbersOfItems items
  | .object entries => numbersOfEntries entries
  | _ => []

def numbersOfItems : List Value → List Number
  | [] => []
  | item :: others => item.numbers ++ numbersOfItems others

def numbersOfEntries : List (String × Value) → List Number
  | [] => []
  | (_, value) :: others => value.numbers ++ numbersOfEntries others

end

@[simp] theorem numbersOfItems_eq_flatMap (items : List Value) :
    numbersOfItems items = items.flatMap numbers :=
  eq_flatMap_of_cons rfl (fun _ _ => rfl) items

@[simp] theorem numbersOfEntries_eq_flatMap (entries : List (String × Value)) :
    numbersOfEntries entries = entries.flatMap fun entry => entry.2.numbers :=
  eq_flatMap_of_cons rfl (fun _ _ => rfl) entries

theorem forall_numbers_array_iff {property : Number → Prop} {items : List Value} :
    (∀ number ∈ (Value.array items).numbers, property number) ↔
      ∀ item ∈ items, ∀ number ∈ item.numbers, property number := by
  rw [numbers, numbersOfItems_eq_flatMap, List.forall_mem_flatMap]

theorem forall_numbers_object_iff {property : Number → Prop} {entries : List (String × Value)} :
    (∀ number ∈ (Value.object entries).numbers, property number) ↔
      ∀ entry ∈ entries, ∀ number ∈ entry.2.numbers, property number := by
  rw [numbers, numbersOfEntries_eq_flatMap, List.forall_mem_flatMap]

end Json.Value

/-! ### Plain values -/

namespace Normalized

mutual

def numbers : Normalized → List Numeric
  | .number value => [value]
  | .array items => numbersOfItems items
  | .object entries => numbersOfEntries entries
  | _ => []

def numbersOfItems : List Normalized → List Numeric
  | [] => []
  | item :: others => item.numbers ++ numbersOfItems others

def numbersOfEntries : List (String × Normalized) → List Numeric
  | [] => []
  | (_, value) :: others => value.numbers ++ numbersOfEntries others

end

@[simp] theorem numbersOfItems_eq_flatMap (items : List Normalized) :
    numbersOfItems items = items.flatMap numbers :=
  eq_flatMap_of_cons rfl (fun _ _ => rfl) items

@[simp] theorem numbersOfEntries_eq_flatMap (entries : List (String × Normalized)) :
    numbersOfEntries entries = entries.flatMap fun entry => entry.2.numbers :=
  eq_flatMap_of_cons rfl (fun _ _ => rfl) entries

end Normalized

/-! ### Typed values -/

/-- The explicit value of a member, if it is a number. -/
def EnumMember.numbers (member : EnumMember) : List Numeric :=
  match member.value with
  | some (.number value) => [value]
  | _ => []

namespace TypedValue

mutual

def numbers : TypedValue → List Numeric
  | .numeric value => [value]
  | .enumMember member => member.numbers
  | .array values => numbersOfList values
  | .object properties => numbersOfEntries properties
  | _ => []

def numbersOfList : List TypedValue → List Numeric
  | [] => []
  | value :: others => value.numbers ++ numbersOfList others

def numbersOfEntries : List (String × TypedValue) → List Numeric
  | [] => []
  | (_, value) :: others => value.numbers ++ numbersOfEntries others

end

@[simp] theorem numbersOfList_eq_flatMap (values : List TypedValue) :
    numbersOfList values = values.flatMap numbers :=
  eq_flatMap_of_cons rfl (fun _ _ => rfl) values

@[simp] theorem numbersOfEntries_eq_flatMap (properties : List (String × TypedValue)) :
    numbersOfEntries properties = properties.flatMap fun property => property.2.numbers :=
  eq_flatMap_of_cons rfl (fun _ _ => rfl) properties

end TypedValue

/-- The numbers of the defaults of a model. -/
def ModelDecl.numbers (model : ModelDecl) : List Numeric :=
  model.properties.flatMap fun property =>
    property.2.default.toList.flatMap TypedValue.numbers

end SdkClients
