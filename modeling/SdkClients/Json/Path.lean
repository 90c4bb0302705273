set_option autoImplicit false

/-!
Paths from the root of a document to one of its nodes.

A path is written with its field names joined by dots and its indices in brackets; the
root is a single dot, and a step that has no name yet is a question mark.
-/

namespace SdkClients.Json

/-- One step down into a document. -/
inductive Segment where
  | field (name : String)
  | index (position : Nat)
  /-- The entry of an object whose name could not be read. -/
  | unnamed
deriving DecidableEq, Repr

/-- The text of a step, and whether a dot goes before it unless it comes first. -/
def Segment.text : Segment → String × Bool
  | .field name => (name, true)
  | .index position => ("[" ++ toString position ++ "]", false)
  | .unnamed => ("?", true)

/-- The steps after the first one. -/
def describeSteps : List Segment → String
  | [] => ""
  | step :: others =>
      (if step.text.2 then "." else "") ++ step.text.1 ++ describeSteps others

/-- The text of a path. -/
def describePath : List Segment → String
  | [] => "."
  | step :: others => step.text.1 ++ describeSteps others

end SdkClients.Json
