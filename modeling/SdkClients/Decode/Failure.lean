import SdkClients.Json.Node
import SdkClients.Json.Printer
import SdkClients.Text.Quoted
import SdkClients.TypedValue

set_option autoImplicit false

/-!
Why a document is not what was wanted.

A failure has a path to the node at fault, a cause, and a place when the document came
from a text. Going up one level puts a step in front of the path. A failure without a
place takes the place that the enclosing array or object offers.
-/

namespace SdkClients.Decode

/-- What stands in the document, as messages name it. -/
inductive Found where
  | null
  | bool (value : Bool)
  | number (value : Json.Number)
  | string (text : String)
  | array
  | object
deriving DecidableEq, Repr

/-- What a reader wanted instead. -/
inductive Expected where
  | string
  | boolean
  | list
  | map
  | record (title : String)
  | typedValue
  | kind
deriving DecidableEq, Repr

/-- The cause of a failure. -/
inductive Cause where
  | malformed (fault : Json.Fault)
  | wrongType (found : Found) (expected : Expected)
  /-- An array that ends before all fields of a record are there. -/
  | tooShort (length : Nat) (title : String) (wanted : Nat)
  /-- An array that goes on after everything wanted. -/
  | tooLong (length : Nat)
  /-- The same with the number of items that were wanted. -/
  | tooLongFor (length wanted : Nat)
  | kindOutOfRange (number : Nat)
  | unknownKind (tag : String)
  | missingField (name : String)
  | duplicateField (name : String)
  | noAlternative (title : String)
deriving DecidableEq, Repr

/-- A cause with the path to the node at fault and the place in the text. -/
structure Failure where
  path : List Json.Segment
  cause : Cause
  place : Option Json.Position
deriving DecidableEq, Repr

/-! ### Wording -/

def Found.describe : Found → String
  | .null => "null"
  | .bool value => "boolean `" ++ Json.renderBool value ++ "`"
  | .number (.integer value) => "integer `" ++ toString value ++ "`"
  | .number (.real value) =>
      "floating point `" ++ Decimal.documentLayout.render value ++ "`"
  | .string text => "string " ++ Text.quote text
  | .array => "sequence"
  | .object => "map"

def Expected.describe : Expected → String
  | .string => "a string"
  | .boolean => "a boolean"
  | .list => "a sequence"
  | .map => "a map"
  | .record title => title
  | .typedValue => "internally tagged enum TypedValue"
  | .kind => "variant identifier"

/-- A number of elements. -/
def describeCount (count : Nat) : String :=
  toString count ++ if count = 1 then " element" else " elements"

def Cause.message : Cause → String
  | .malformed fault => fault.message
  | .wrongType found expected =>
      "invalid type: " ++ found.describe ++ ", expected " ++ expected.describe
  | .tooShort length title wanted =>
      "invalid length " ++ toString length ++ ", expected " ++ title ++ " with " ++
        describeCount wanted
  | .tooLong length =>
      "invalid length " ++ toString length ++ ", expected fewer elements in array"
  | .tooLongFor length wanted =>
      "invalid length " ++ toString length ++ ", expected " ++ describeCount wanted ++ " in sequence"
  | .kindOutOfRange number =>
      "invalid value: integer `" ++ toString number ++ "`, expected variant index 0 <= i < " ++
        toString TypedKind.all.length
  | .unknownKind tag =>
      "unknown variant `" ++ tag ++ "`, expected one of " ++
        String.intercalate ", " (TypedKind.all.map fun kind => "`" ++ kind.tag ++ "`")
  | .missingField name => "missing field `" ++ name ++ "`"
  | .duplicateField name => "duplicate field `" ++ name ++ "`"
  | .noAlternative title => "data did not match any variant of untagged enum " ++ title

/-- The cause and, if it is known, the place. -/
def Failure.message (failure : Failure) : String :=
  match failure.place with
  | some place => failure.cause.message ++ " at " ++ place.describe
  | none => failure.cause.message

/-- The path in text form. -/
def Failure.pathText (failure : Failure) : String := Json.describePath failure.path

/-- The path and the message together. -/
def Failure.report (failure : Failure) : String :=
  "at JSON path " ++ failure.pathText ++ " → " ++ failure.message

/-! ### Construction -/

namespace Failure

/-- A failure of the node itself. -/
def here (cause : Cause) (place : Option Json.Position) : Failure := ⟨[], cause, place⟩

/-- A fault of the text. -/
def ofMalformed (malformed : Json.Malformed) : Failure :=
  ⟨[], .malformed malformed.fault, some malformed.place⟩

/-- A fault of the text below a node. -/
def ofUnreadable (unreadable : Json.Unreadable) : Failure :=
  ⟨unreadable.path, .malformed unreadable.malformed.fault, some unreadable.malformed.place⟩

/-- The same failure seen from one level further up. -/
def under (step : Json.Segment) (failure : Failure) : Failure :=
  { failure with path := step :: failure.path }

/-- The same failure with a place, unless it has one. -/
def orAt (place : Option Json.Position) (failure : Failure) : Failure :=
  { failure with place := failure.place.or place }

end Failure

end SdkClients.Decode
