import SdkClients.CommandLine.Command
import SdkClients.Document.Loading
import SdkClients.ValueReport

set_option autoImplicit false

/-!
Running commands.

A command loads its documents, makes a result from them and prints it or writes it to a
file. Nothing is printed or written before the whole result is there. Filters are run by
whatever engine there is.
-/

namespace SdkClients.CommandLine

/-- Why a command fails. -/
inductive RunError where
  | unloaded (error : LoadError)
  | noClients (error : ClientReportError)
  | noValues (error : ValueReportError)
  | noDirectory (error : FileError)
  | unwritten (path : String) (error : FileError)
deriving Repr

def RunError.message : RunError → String
  | .unloaded error => error.message
  | .noClients error => error.message
  | .noValues error => error.message
  | .noDirectory error => error.message
  | .unwritten path error => "failed to write " ++ path ++ ": " ++ error.message

namespace Command

def route : Command → Route
  | .clients route _ _ => route
  | .values route _ => route

/-- The reports about some documents. -/
def reports (query : ClientQuery) (documents : List Document) :
    Except RunError (List ClientReport) :=
  (documents.mapM (ClientReport.ofDocument query)).mapError .noClients

/-- The plain values of some documents. -/
def plainValues (model : Bool) (documents : List Document) :
    Except RunError (List Json.Value) :=
  (documents.mapM (ValueReport.ofDocument model)).mapError .noValues

/-- The text that a command makes of its documents. -/
def render (coloured : Bool) (documents : List Document) : Command → Except RunError String
  | .clients _ query .json => (reports query documents).map ClientReport.renderJson
  | .clients _ query .text => (reports query documents).map (ClientReport.renderText coloured)
  | .values _ model => (plainValues model documents).map ValueReport.render

/-- The text that a command makes of files, given with their contents. -/
def renderFiles [FilterEngine] (coloured : Bool) (command : Command)
    (files : List (String × Except FileError String)) : Except RunError String := do
  let documents ← (Document.loadFiles command.route.selection files).mapError .unloaded
  command.render coloured documents

/-- The text that a command makes of the files it finds. -/
def renderTree [FilterEngine] (coloured : Bool) (command : Command) (tree : FileTree) :
    Except RunError String := do
  let documents ←
    (Document.load tree command.route.selection command.route.inputs).mapError .unloaded
  command.render coloured documents

end Command

/-- What a command printed, the files after it, and why it failed if it did. -/
structure Outcome where
  printed : String
  files : FileTree
  failure : Option RunError
deriving Repr

/-- Writes a text to a file, after making the directories around it. If the writing fails,
these directories stay. -/
def deliverTo (path text : String) (tree : FileTree) : Outcome :=
  match tree.makeParents path with
  | .error error => ⟨"", tree, some (.noDirectory error)⟩
  | .ok ready =>
      match ready.write path text with
      | .error error => ⟨"", ready, some (.unwritten path error)⟩
      | .ok written => ⟨"", written, none⟩

/-- Prints a text and a line feed, or writes the text to a file. -/
def deliver (out : Option String) (text : String) (tree : FileTree) : Outcome :=
  match out with
  | none => ⟨text ++ "\n", tree, none⟩
  | some path => deliverTo path text tree

/-- Runs a command on a tree of files. -/
def run [FilterEngine] (coloured : Bool) (command : Command) (tree : FileTree) : Outcome :=
  match command.renderTree coloured tree with
  | .error error => ⟨"", tree, some error⟩
  | .ok text => deliver command.route.out text tree

end SdkClients.CommandLine
