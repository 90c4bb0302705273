import SdkClients.CommandLine.Assignments

set_option autoImplicit false

/-!
What the program says about its own use.
-/

namespace SdkClients.CommandLine

/-- The summary of all commands and settings. -/
def usage : String := "\n".intercalate [
  "usage: sdk-clients clients -i FILE... [--client NAME] [-r] [--rule RULE] [--format FORMAT]",
  "       sdk-clients values -i FILE... [--model]",
  "",
  "clients lists the sub-clients of a client in each service description.",
  "values writes typed values, or the defaults of models, as plain documents.",
  "",
  "  -i, --input FILE...    paths or quoted patterns",
  "      --ndjson           one document on every line",
  "      --json-pointer P   the part of each document that is used",
  "      --jq-expr FILTER   a filter that makes documents of each document",
  "  -o, --out FILE         write the result to a file",
  "      --client NAME      the qualified name of a client instead of the root",
  "  -r, --recursive        all sub-clients, level by level",
  "      --rule RULE        all-nested or non-empty",
  "      --format FORMAT    text or json",
  "      --model            the inputs are models"]

/-- The text of the version. -/
def version : String := "sdk-clients 0.1.0"

/-- What is said to a command line that is not accepted. -/
def UsageError.message : UsageError → String
  | .helpWanted => usage
  | .versionWanted => version
  | .nothingGiven => usage
  | .unknownCommand => "there is no such command"
  | .unknownArgument => "unexpected argument"
  | .badValue => "a setting has a value that is missing or not valid"
  | .unwantedValue => "a switch takes no value"
  | .givenTwice => "a setting is given twice"
  | .inputMissing => "no input is given"

/-- Whether a command line only asks for information. -/
def UsageError.isRequest : UsageError → Bool
  | .helpWanted | .versionWanted => true
  | _ => false

end SdkClients.CommandLine
