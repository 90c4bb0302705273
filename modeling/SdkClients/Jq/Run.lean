import SdkClients.FilterEngine
import SdkClients.Jq.Eval
import SdkClients.Jq.Parser
import SdkClients.Jq.Scope

set_option autoImplicit false

/-!
An engine for a part of the filter language.

It knows some forms and some predefined filters and refuses filters that need others, so
that it can stand in for a full engine on the rest only. A value is put out as its text.
What is wrong with a text that is no filter, or with a value, is not told.
-/

namespace SdkClients.Jq

/-- An entry of an outcome as it is put out. -/
def output : Option Value → FilterOutput
  | some value => .text value.render
  | none => .error ""

instance engine : FilterEngine where
  compile source :=
    match Filter.parse source with
    | none => .error (.unparsed [])
    | some filter =>
        match filter.undefined [] with
        | [] => .ok fun document => (filter.outcome (.ofJson document)).map output
        | names => .error (.undefinedNames (names.map Undefined.described))

/-- The documents that a filter makes of a document. -/
def run (source : String) (document : Json.Value) : Except FilterFailure (List Json.Value) :=
  engine.run source document

end SdkClients.Jq
