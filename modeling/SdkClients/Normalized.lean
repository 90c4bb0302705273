import SdkClients.Json.Printer
import SdkClients.TypedValue

set_option autoImplicit false

/-!
Plain values.

Normalizing a typed value drops the kinds and replaces a reference to an enumeration
member by its explicit value, or by its name when it has none. The result consists of
scalars, lists and named entries in order.

A plain value has two ways to become document text: `Normalized.render` writes it
directly, and `Normalized.toJson` makes a document value that is then printed.
-/

namespace SdkClients

/-- A plain value. -/
inductive Normalized where
  | null
  | bool (value : Bool)
  | number (value : Numeric)
  | string (text : String)
  | array (items : List Normalized)
  | object (entries : List (String × Normalized))
deriving Repr, Inhabited

namespace Normalized

/-- The plain value of an explicit enumeration value. -/
def ofEnumValue : EnumValue → Normalized
  | .text value => .string value
  | .number value => .number value

/-- The explicit value of a member, or its name. -/
def ofEnumMember (member : EnumMember) : Normalized :=
  match member.value with
  | some value => ofEnumValue value
  | none => .string member.name

mutual

/-- The plain value of a typed value. -/
def ofTyped : TypedValue → Normalized
  | .string value => .string value
  | .boolean value => .bool value
  | .null => .null
  | .numeric value => .number value
  | .enumMember member => ofEnumMember member
  | .array values => .array (ofTypedList values)
  | .object properties => .object (ofTypedEntries properties)

def ofTypedList : List TypedValue → List Normalized
  | [] => []
  | value :: others => ofTyped value :: ofTypedList others

def ofTypedEntries : List (String × TypedValue) → List (String × Normalized)
  | [] => []
  | (name, value) :: others => (name, ofTyped value) :: ofTypedEntries others

end

/-! ### Documents -/

mutual

/-- The plain value of a document value; every document value has one. -/
def ofJson : Json.Value → Normalized
  | .null => .null
  | .bool value => .bool value
  | .number value => .number (Numeric.ofNumber value)
  | .string text => .string text
  | .array items => .array (ofJsonList items)
  | .object entries => .object (Keyed.ofList (ofJsonEntries entries))

def ofJsonList : List Json.Value → List Normalized
  | [] => []
  | item :: others => ofJson item :: ofJsonList others

def ofJsonEntries : List (String × Json.Value) → List (String × Normalized)
  | [] => []
  | (key, value) :: others => (key, ofJson value) :: ofJsonEntries others

end

mutual

/-- The document value of a plain value; a number without a decimal form becomes null. -/
def toJson : Normalized → Json.Value
  | .null => .null
  | .bool value => .bool value
  | .number value => value.toJson
  | .string text => .string text
  | .array items => .array (toJsonList items)
  | .object entries => .object (toJsonEntries entries)

def toJsonList : List Normalized → List Json.Value
  | [] => []
  | item :: others => toJson item :: toJsonList others

def toJsonEntries : List (String × Normalized) → List (String × Json.Value)
  | [] => []
  | (name, value) :: others => (name, toJson value) :: toJsonEntries others

end

/-! ### Text -/

/-- The text of a number. -/
def renderNumeric : Numeric → String
  | .integer value => toString value.toInt
  | .real value => Json.renderReal value

mutual

/-- The document text of a plain value, written directly. -/
def render : Normalized → String
  | .null => "null"
  | .bool value => Json.renderBool value
  | .number value => renderNumeric value
  | .string text => Json.renderString text
  | .array items => Json.enclose "[" "]" (renderList items)
  | .object entries => Json.enclose "\x7b" "\x7d" (renderEntries entries)

def renderList : List Normalized → List String
  | [] => []
  | item :: others => render item :: renderList others

def renderEntries : List (String × Normalized) → List String
  | [] => []
  | (name, value) :: others =>
      (Json.renderString name ++ ":" ++ render value) :: renderEntries others

end

/-! ### Defaults -/

/-- The plain defaults of the properties that declare one, in property order. -/
def defaults (model : ModelDecl) : List (String × Normalized) :=
  model.properties.filterMap fun (name, property) =>
    property.default.map fun value => (name, ofTyped value)

end Normalized

end SdkClients
