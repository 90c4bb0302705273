import SdkClients.Numeric

set_option autoImplicit false

/-!
Typed values: the literals and constants of a service model, with the models that declare
them as defaults.

Each literal carries its kind. The properties of an object literal and of a model are
kept in declaration order; their names are distinct in every declaration that is read.
-/

namespace SdkClients

/-- The explicit value of an enumeration member. -/
inductive EnumValue where
  | text (value : String)
  | number (value : Numeric)
deriving DecidableEq, Repr

/-- A member of an enumeration, with or without an explicit value. -/
structure EnumMember where
  name : String
  value : Option EnumValue
deriving DecidableEq, Repr

/-- A literal or constant of a service model. -/
inductive TypedValue where
  | string (value : String)
  | boolean (value : Bool)
  | null
  | numeric (value : Numeric)
  | enumMember (member : EnumMember)
  | array (values : List TypedValue)
  | object (properties : List (String × TypedValue))
deriving Repr, Inhabited

/-- A property of a model. -/
structure PropertyDecl where
  default : Option TypedValue
deriving Repr

/-- A model: its name and its properties. -/
structure ModelDecl where
  name : String
  properties : List (String × PropertyDecl)
deriving Repr

/-- The kinds of typed values, in the order in which they are numbered. -/
inductive TypedKind where
  | stringLiteral
  | booleanLiteral
  | null
  | numericLiteral
  | enumMemberReference
  | arrayLiteral
  | objectLiteral
deriving DecidableEq, Repr

namespace TypedKind

/-- All kinds in order. -/
def all : List TypedKind :=
  [.stringLiteral, .booleanLiteral, .null, .numericLiteral, .enumMemberReference,
    .arrayLiteral, .objectLiteral]

/-- The tag that a document uses for a kind. -/
def tag : TypedKind → String
  | .stringLiteral => "string-literal"
  | .booleanLiteral => "boolean-literal"
  | .null => "null"
  | .numericLiteral => "numeric-literal"
  | .enumMemberReference => "enum-member-reference"
  | .arrayLiteral => "array-literal"
  | .objectLiteral => "object-literal"

/-- The name of a kind in messages. -/
def title : TypedKind → String
  | .stringLiteral => "StringLiteral"
  | .booleanLiteral => "BooleanLiteral"
  | .null => "Null"
  | .numericLiteral => "NumericLiteral"
  | .enumMemberReference => "EnumMemberReference"
  | .arrayLiteral => "ArrayLiteral"
  | .objectLiteral => "ObjectLiteral"

/-- The kind with a given tag. -/
def ofTag? (tag : String) : Option TypedKind := all.find? (fun kind => kind.tag == tag)

end TypedKind

/-- The kind of a typed value. -/
def TypedValue.kind : TypedValue → TypedKind
  | .string _ => .stringLiteral
  | .boolean _ => .booleanLiteral
  | .null => .null
  | .numeric _ => .numericLiteral
  | .enumMember _ => .enumMemberReference
  | .array _ => .arrayLiteral
  | .object _ => .objectLiteral

end SdkClients
