import SdkClients.Document
import SdkClients.Glob.Expand

set_option autoImplicit false

/-!
Loading documents from files.

An input is the path of a file, or a pattern if it contains a star, a question mark, an
opening bracket or an opening brace. A pattern stands for the paths that fit, of which
there has to be at least one. All inputs are expanded before a file is read; then the
files are read in order, and the first failure ends it all.
-/

namespace SdkClients

/-- Why documents cannot be loaded. -/
inductive LoadError where
  | badPattern (pattern : String) (error : Glob.PatternError)
  | noMatch (pattern : String)
  | unreadable (path : String) (error : FileError)
  | unselected (error : SelectionError)
deriving Repr

def LoadError.message : LoadError → String
  | .badPattern pattern error => "bad glob pattern `" ++ pattern ++ "`: " ++ error.message
  | .noMatch pattern => "glob pattern matched no files: " ++ pattern
  | .unreadable path error => "failed to read source file (" ++ path ++ "): " ++ error.message
  | .unselected error => error.message

namespace Document

/-- Whether an input is a pattern. -/
def isPattern (input : String) : Bool :=
  input.toList.any fun character => ['*', '?', '[', '\x7b'].contains character

/-- The paths that one input stands for. -/
def expandInput (tree : FileTree) (input : String) : Except LoadError (List String) :=
  if isPattern input then
    match Glob.expand tree input with
    | .error error => .error (.badPattern input error)
    | .ok [] => .error (.noMatch input)
    | .ok paths => .ok paths
  else .ok [input]

/-- The paths that some inputs stand for. -/
def expandInputs (tree : FileTree) (inputs : List String) : Except LoadError (List String) := do
  let paths ← inputs.mapM (expandInput tree)
  return paths.flatten

variable [FilterEngine]

/-- The documents that are wanted of one file. -/
def loadFile (selection : Selection) (path : String) (content : Except FileError String) :
    Except LoadError (List Document) :=
  match content with
  | .error error => .error (.unreadable path error)
  | .ok text => (selectFromText selection path text).mapError .unselected

/-- The documents that are wanted of some files, given with their contents. -/
def loadFiles (selection : Selection) (files : List (String × Except FileError String)) :
    Except LoadError (List Document) := do
  let documents ← files.mapM fun file => loadFile selection file.1 file.2
  return documents.flatten

/-- The documents that are wanted of some inputs. -/
def load (tree : FileTree) (selection : Selection) (inputs : List String) :
    Except LoadError (List Document) := do
  let paths ← expandInputs tree inputs
  loadFiles selection (paths.map fun path => (path, tree.read path))

end Document

end SdkClients
