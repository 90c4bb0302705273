import SdkClients.Decode
import SdkClients.Document
import SdkClients.Normalized

set_option autoImplicit false

/-!
Plain values of documents.

A document is read as a typed value, or as a model whose defaults are wanted. A single
result is written by itself, and any other number of results as a list.
-/

namespace SdkClients

/-- Why a document has no plain value. -/
inductive ValueReportError where
  | notModel (source : String) (failure : Decode.Failure)
  | notTyped (source : String) (failure : Decode.Failure)
deriving Repr

def ValueReportError.message : ValueReportError → String
  | .notModel source failure => source ++ " is not a model document: " ++ failure.report
  | .notTyped source failure => source ++ " is not a typed value: " ++ failure.report

namespace ValueReport

/-- The defaults of a model under the names of their properties. -/
def ofModel (document : Document) : Except ValueReportError Json.Value :=
  match Decode.fromValue Decode.readModel document.value with
  | .error failure => .error (.notModel document.source failure)
  | .ok model => .ok (.object (Keyed.ofList
      ((Normalized.defaults model).map fun (name, value) => (name, value.toJson))))

/-- The plain value of a typed value. -/
def ofTyped (document : Document) : Except ValueReportError Json.Value :=
  match Decode.fromValue Decode.readTyped document.value with
  | .error failure => .error (.notTyped document.source failure)
  | .ok value => .ok (Normalized.ofTyped value).toJson

/-- The plain value of a document. -/
def ofDocument (model : Bool) (document : Document) : Except ValueReportError Json.Value :=
  if model then ofModel document else ofTyped document

/-- The results as text. -/
def render : List Json.Value → String
  | [single] => single.renderIndented
  | values => (Json.Value.array values).renderIndented

end ValueReport

end SdkClients
