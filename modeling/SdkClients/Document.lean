import SdkClients.FilterEngine
import SdkClients.Json.Pointer
import SdkClients.Text.Blank
import SdkClients.Text.Line

set_option autoImplicit false

/-!
Documents and the parts of them that are wanted.

A source holds one document, or one on every line that is not blank. A document has a
label for messages: the name of its source, with the number of its line if it has one. A
pointer replaces a document by a part of it, and a filter replaces it by any number of
documents under the same label. Which filters there are is up to an engine.
-/

namespace SdkClients

/-- A value and the label of the place where it comes from. -/
structure Document where
  source : String
  value : Json.Value
deriving Repr

/-- How a source is divided into documents and what is taken of each. -/
structure Selection where
  perLine : Bool
  pointer : Option String
  filter : Option String
deriving DecidableEq, Repr

/-- Why a source does not give documents. -/
inductive SelectionError where
  | malformed (source : String) (fault : Json.Malformed)
  | malformedLine (label : String) (fault : Json.Malformed)
  | nothingThere (pointer label : String)
  | filterFailed (label : String) (failure : FilterFailure)
deriving Repr

def SelectionError.message : SelectionError → String
  | .malformed source fault =>
      "failed to parse JSON source file (" ++ source ++ "): " ++ fault.message
  | .malformedLine label fault => "failed to parse JSON (" ++ label ++ "): " ++ fault.message
  | .nothingThere pointer label => "JSON pointer `" ++ pointer ++ "` selects nothing in " ++ label
  | .filterFailed label failure =>
      "failed to apply jq expression to " ++ label ++ ": " ++ failure.message

namespace Document

/-- The lines with content, each with its number counted from one. -/
def numberedLines (text : String) : List (List Char × Nat) :=
  ((Text.lines text.toList).zipIdx 1).filter fun line => !Text.isBlankLine line.1

/-- The document on one line. -/
def ofLine (source : String) (line : List Char × Nat) : Except SelectionError Document :=
  let label := source ++ ":" ++ toString line.2
  match Json.Value.parse (String.ofList line.1) with
  | .ok value => .ok ⟨label, value⟩
  | .error fault => .error (.malformedLine label fault)

/-- The document that fills a source. -/
def ofText (source text : String) : Except SelectionError Document :=
  match Json.Value.parse text with
  | .ok value => .ok ⟨source, value⟩
  | .error fault => .error (.malformed source fault)

/-- All documents of a source. -/
def allOfText (selection : Selection) (source text : String) :
    Except SelectionError (List Document) :=
  if selection.perLine then (numberedLines text).mapM (ofLine source)
  else (ofText source text).map ([·])

/-- The part of a document that the pointer selects. -/
def point (selection : Selection) (document : Document) : Except SelectionError Document :=
  match selection.pointer with
  | none => .ok document
  | some pointer =>
      match Json.Pointer.select? pointer document.value with
      | some value => .ok { document with value := value }
      | none => .error (.nothingThere pointer document.source)

variable [FilterEngine]

/-- The documents that the filter makes of a document. -/
def filter (selection : Selection) (document : Document) :
    Except SelectionError (List Document) :=
  match selection.filter with
  | none => .ok [document]
  | some expression =>
      match FilterEngine.run expression document.value with
      | .ok values => .ok (values.map fun value => { document with value := value })
      | .error failure => .error (.filterFailed document.source failure)

/-- The documents that are wanted of one document. -/
def select (selection : Selection) (document : Document) :
    Except SelectionError (List Document) := do
  filter selection (← point selection document)

/-- The documents that are wanted of a source. All documents of the source are read before
anything is selected. -/
def selectFromText (selection : Selection) (source text : String) :
    Except SelectionError (List Document) := do
  let documents ← allOfText selection source text
  let selected ← documents.mapM (select selection)
  return selected.flatten

end Document

end SdkClients
