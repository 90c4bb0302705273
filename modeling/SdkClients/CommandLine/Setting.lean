set_option autoImplicit false

/-!
What can be set on the command line.

A setting has a long name and perhaps a letter. A switch takes no value, a field takes
one, and a list takes any number, also when it is given several times.
-/

namespace SdkClients.CommandLine

/-- Something that words of a command line set. -/
inductive Setting where
  | help
  | perLine
  | pointer
  | filter
  | inputs
  | client
  | recursive
  | rule
  | format
  | model
  | out
deriving DecidableEq, Repr

/-- How many values a setting takes. -/
inductive Arity where
  | switch
  | field
  | list
deriving DecidableEq, Repr

namespace Setting

def arity : Setting → Arity
  | .help | .perLine | .recursive | .model => .switch
  | .pointer | .filter | .client | .rule | .format | .out => .field
  | .inputs => .list

/-- The name behind two hyphens. -/
def longName : Setting → String
  | .help => "help"
  | .perLine => "ndjson"
  | .pointer => "json-pointer"
  | .filter => "jq-expr"
  | .inputs => "input"
  | .client => "client"
  | .recursive => "recursive"
  | .rule => "rule"
  | .format => "format"
  | .model => "model"
  | .out => "out"

/-- The letter behind one hyphen. -/
def letter? : Setting → Option Char
  | .help => some 'h'
  | .inputs => some 'i'
  | .recursive => some 'r'
  | .out => some 'o'
  | _ => none

/-- The settings of the command that reports clients. -/
def ofClients : List Setting :=
  [.help, .perLine, .pointer, .filter, .inputs, .client, .recursive, .rule, .format, .out]

/-- The settings of the command that reports values. -/
def ofValues : List Setting := [.help, .perLine, .pointer, .filter, .inputs, .model, .out]

/-- The setting with a long name. -/
def named? (settings : List Setting) (name : String) : Option Setting :=
  settings.find? fun setting => setting.longName == name

/-- The setting with a letter. -/
def lettered? (settings : List Setting) (letter : Char) : Option Setting :=
  settings.find? fun setting => setting.letter? == some letter

end Setting

end SdkClients.CommandLine
