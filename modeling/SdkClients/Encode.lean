import SdkClients.Description
import SdkClients.TypedValue

set_option autoImplicit false

/-!
The documents of declarations and typed values.

Fields are written in declaration order. A tagged value starts with its kind, an absent
enumeration value or default is left out, and a container writes all its fields.
-/

namespace SdkClients

/-- The document of an explicit enumeration value. -/
def EnumValue.toJson : EnumValue → Json.Value
  | .text value => .string value
  | .number value => value.toJson

/-- The document of an enumeration member. -/
def EnumMember.toJson (member : EnumMember) : Json.Value :=
  .object (("name", .string member.name) ::
    (member.value.map fun value => ("value", value.toJson)).toList)

namespace TypedValue

/-- A document with a kind and at most one further field. -/
def tagged (kind : TypedKind) (field : List (String × Json.Value)) : Json.Value :=
  .object (("kind", .string kind.tag) :: field)

mutual

/-- The document of a typed value. -/
def toJson : TypedValue → Json.Value
  | .string value => tagged .stringLiteral [("value", .string value)]
  | .boolean value => tagged .booleanLiteral [("value", .bool value)]
  | .null => tagged .null []
  | .numeric value => tagged .numericLiteral [("value", value.toJson)]
  | .enumMember member => tagged .enumMemberReference [("member", member.toJson)]
  | .array values => tagged .arrayLiteral [("values", .array (listToJson values))]
  | .object properties =>
      tagged .objectLiteral [("properties", .object (entriesToJson properties))]

def listToJson : List TypedValue → List Json.Value
  | [] => []
  | value :: others => toJson value :: listToJson others

def entriesToJson : List (String × TypedValue) → List (String × Json.Value)
  | [] => []
  | (name, value) :: others => (name, toJson value) :: entriesToJson others

end

end TypedValue

/-- The document of a property. -/
def PropertyDecl.toJson (property : PropertyDecl) : Json.Value :=
  .object (property.default.map fun value => ("defaultValue", value.toJson)).toList

/-- The document of a model. -/
def ModelDecl.toJson (model : ModelDecl) : Json.Value :=
  .object [("name", .string model.name),
    ("properties", .object (model.properties.map fun (name, property) => (name, property.toJson)))]

mutual

/-- The document of a container. -/
def ContainerDecl.toJson : ContainerDecl → Json.Value
  | ⟨name, service, client, operations, namespaces, interfaces⟩ =>
      .object [("name", .string name), ("service", .bool service), ("client", .bool client),
        ("operations", .array (operations.map .string)),
        ("namespaces", .array (ContainerDecl.listToJson namespaces)),
        ("interfaces", .array (ContainerDecl.listToJson interfaces))]

def ContainerDecl.listToJson : List ContainerDecl → List Json.Value
  | [] => []
  | declaration :: others => declaration.toJson :: ContainerDecl.listToJson others

end

end SdkClients
