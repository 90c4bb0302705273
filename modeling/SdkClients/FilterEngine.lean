import SdkClients.Json.Reader

set_option autoImplicit false

/-!
Filters of documents.

What filters there are and what they do is up to an engine. It takes the text of a filter,
or says what is wrong with it, and a filter that it took puts out one text after the other
for a document. Each text is read back, and what is read becomes a document. One error, or
one text that is no document, fails the whole run; the documents in front of it are dropped.
-/

namespace SdkClients

/-- Why an engine does not take a filter. A name without a definition comes with what was
looked for under it. -/
inductive FilterRefusal where
  | unparsed (problems : List String)
  | undefinedNames (names : List (String × String))
deriving DecidableEq, Repr

/-- What a filter puts out next. -/
inductive FilterOutput where
  | text (content : String)
  | error (reason : String)
  /-- The filter runs on for ever, be it without a text or with texts of documents only. -/
  | unending
deriving DecidableEq, Repr

/-- Takes filters and runs them on documents. -/
class FilterEngine where
  compile : String → Except FilterRefusal (Json.Value → List FilterOutput)

/-- Why a filter makes no documents. -/
inductive FilterFailure where
  | refused (refusal : FilterRefusal)
  | runtime (reason : String)
  | notJson (text : String) (fault : Json.Malformed)
  /-- The filter runs on, so nothing comes of it. -/
  | unending
deriving Repr

/-- The message up to the point from which on the engine has the word. -/
def FilterFailure.message : FilterFailure → String
  | .refused (.unparsed _) => "jq parse failed"
  | .refused (.undefinedNames names) =>
      "jq compile failed: " ++ String.intercalate "; " (names.map fun name =>
        "undefined `" ++ name.1 ++ "` (" ++ name.2 ++ ")")
  | .runtime _ => "jq runtime error"
  | .notJson _ _ => "jq output is not JSON"
  | .unending => "jq does not end"

namespace FilterEngine

/-- The documents that the outputs of a filter stand for. -/
def readBack : List FilterOutput → Except FilterFailure (List Json.Value)
  | [] => .ok []
  | .error reason :: _ => .error (.runtime reason)
  | .unending :: _ => .error .unending
  | .text content :: others =>
      match Json.Value.parse content with
      | .error fault => .error (.notJson content fault)
      | .ok document => do
          let documents ← readBack others
          return document :: documents

/-- The documents that a filter makes of a document. -/
def run [FilterEngine] (source : String) (document : Json.Value) :
    Except FilterFailure (List Json.Value) :=
  match compile source with
  | .error refusal => .error (.refused refusal)
  | .ok filter => readBack (filter document)

end FilterEngine

end SdkClients
