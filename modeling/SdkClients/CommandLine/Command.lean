import SdkClients.ClientReport
import SdkClients.CommandLine.Assignments
import SdkClients.Document

set_option autoImplicit false

/-!
Commands.

The first word is the name of a command or asks for help, and the words after it are
settings of that command. A setting that is not given has a default; only the inputs have
to be given.
-/

namespace SdkClients.CommandLine

/-- How reports about clients are written. -/
inductive ReportFormat where
  | text
  | json
deriving DecidableEq, Repr

/-- The inputs of a command, what is taken of them, and the file for the result. -/
structure Route where
  inputs : List String
  selection : Selection
  out : Option String
deriving DecidableEq, Repr

/-- What is to be done. -/
inductive Command where
  | clients (route : Route) (query : ClientQuery) (format : ReportFormat)
  | values (route : Route) (model : Bool)
deriving DecidableEq, Repr

/-- The rule with a name. -/
def rule? : String → Option PromotionRule
  | "all-nested" => some .allNested
  | "non-empty" => some .nonEmpty
  | _ => none

/-- The format with a name. -/
def format? : String → Option ReportFormat
  | "text" => some .text
  | "json" => some .json
  | _ => none

/-- Whether a value can be given to a setting: rules and formats have fixed names, and the
name of a file is not empty. -/
def valid : Setting → String → Bool
  | .rule, value => (rule? value).isSome
  | .format, value => (format? value).isSome
  | .out, value => !value.isEmpty
  | _, _ => true

namespace Command

/-- The route that some settings describe. -/
def routeOf (given : Assignments) : Route :=
  { inputs := given.valuesOf .inputs
    selection := ⟨given.has .perLine, given.value? .pointer, given.value? .filter⟩
    out := given.value? .out }

/-- Reads the settings of a command, which have to name an input. -/
def readSettings (settings : List Setting) (words : List String) :
    Except UsageError Assignments := do
  let given ← readWords settings valid ⟨[], none⟩ words
  if given.has .inputs then return given else throw .inputMissing

/-- The command that reports clients. -/
def readClients (words : List String) : Except UsageError Command := do
  let given ← readSettings Setting.ofClients words
  return .clients (routeOf given)
    { client := given.value? .client
      recursive := given.has .recursive
      rule := ((given.value? .rule).bind rule?).getD .allNested }
    (((given.value? .format).bind format?).getD .text)

/-- The command that reports values. -/
def readValues (words : List String) : Except UsageError Command := do
  let given ← readSettings Setting.ofValues words
  return .values (routeOf given) (given.has .model)

/-- The names that can stand in the first word. -/
def names : List String := ["clients", "values", "help"]

/-- The answer to a request for help about the command with some name. -/
def readHelp : List String → UsageError
  | [] => .helpWanted
  | [name] => if names.contains name then .helpWanted else .unknownCommand
  | _ => .unknownCommand

/-- The answer to a first word that starts with a hyphen and to one that is no command. -/
def readFirst (word : String) : UsageError :=
  match word.toList with
  | '-' :: '-' :: letters =>
      match splitLong letters with
      | ("help", none) => .helpWanted
      | ("version", none) => .versionWanted
      | ("help", some _) => .unwantedValue
      | ("version", some _) => .unwantedValue
      | _ => .unknownArgument
  | '-' :: 'h' :: _ => .helpWanted
  | '-' :: 'V' :: _ => .versionWanted
  | '-' :: _ :: _ => .unknownArgument
  | _ => .unknownCommand

/-- Reads the words of a command line. -/
def read : List String → Except UsageError Command
  | [] => .error .nothingGiven
  | "clients" :: words => readClients words
  | "values" :: words => readValues words
  | "help" :: words => .error (readHelp words)
  | ["--"] => .error .nothingGiven
  | "--" :: word :: _ =>
      .error (if names.contains word then .unknownArgument else .unknownCommand)
  | word :: _ => .error (readFirst word)

end Command

end SdkClients.CommandLine
