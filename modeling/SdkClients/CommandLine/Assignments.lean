import SdkClients.CommandLine.Setting

set_option autoImplicit false

/-!
Reading the words of a command line as settings and their values.

A word that starts with a hyphen names settings, either one by its long name or several by
their letters; a value may follow in the same word. Words after a setting without such a
value are its values: one for a field, all up to the next hyphen for a list. A setting is
accepted when all its values are known, which is when the next setting is named or the
words end. Two hyphens alone end the settings, and no word may follow them.
-/

namespace SdkClients.CommandLine

/-- Why the words of a command line are not accepted. -/
inductive UsageError where
  | helpWanted
  | versionWanted
  | nothingGiven
  | unknownCommand
  | unknownArgument
  | badValue
  | unwantedValue
  | givenTwice
  | inputMissing
deriving DecidableEq, Repr

/-- The settings that were given, in order, with their values. -/
abbrev Assignments := List (Setting × List String)

namespace Assignments

/-- All values of a setting. -/
def valuesOf (given : Assignments) (setting : Setting) : List String :=
  (given.filter fun entry => entry.1 == setting).flatMap (·.2)

/-- The value of a field. -/
def value? (given : Assignments) (setting : Setting) : Option String :=
  (valuesOf given setting).head?

/-- Whether a setting was given. -/
def has (given : Assignments) (setting : Setting) : Bool :=
  given.any fun entry => entry.1 == setting

/-- Accepts a setting with its values, unless they are wrong for it: a value is missing, a
setting other than a list is given again, or a value is not among the valid ones. -/
def accept (valid : Setting → String → Bool) (given : Assignments) (setting : Setting)
    (values : List String) : Except UsageError Assignments :=
  if setting.arity ≠ .switch ∧ values.isEmpty then .error .badValue
  else if setting = .help then .error .helpWanted
  else if setting.arity ≠ .list ∧ has given setting then .error .givenTwice
  else if values.all (valid setting) then .ok (given ++ [(setting, values)])
  else .error .badValue

end Assignments

/-- The settings accepted so far, and the one that may take the next words as values. -/
structure Reading where
  given : Assignments
  waiting : Option (Setting × List String)
deriving DecidableEq, Repr

namespace Reading

variable (settings : List Setting) (valid : Setting → String → Bool)

/-- Accepts the setting that was waiting for values. -/
def settle (reading : Reading) : Except UsageError Assignments :=
  match reading.waiting with
  | none => .ok reading.given
  | some (setting, values) => Assignments.accept valid reading.given setting values

/-- Accepts a setting whose values are all known. -/
def complete (reading : Reading) (setting : Setting) (values : List String) :
    Except UsageError Reading := do
  let given ← Assignments.accept valid (← reading.settle valid) setting values
  return ⟨given, none⟩

/-- Lets a setting wait for values. -/
def await (reading : Reading) (setting : Setting) : Except UsageError Reading := do
  return ⟨← reading.settle valid, some (setting, [])⟩

/-- Takes a setting by its long name, with the value that follows an equals sign. -/
def takeLong (reading : Reading) (name : String) (value : Option String) :
    Except UsageError Reading :=
  match Setting.named? settings name with
  | none => .error .unknownArgument
  | some setting =>
      if setting.arity = .switch then
        if value.isSome then .error .unwantedValue else reading.complete valid setting []
      else
        match value with
        | some value => reading.complete valid setting [value]
        | none => reading.await valid setting

/-- The value that follows a letter in the same word; an equals sign may stand between. -/
def attached : List Char → String
  | '=' :: value => String.ofList value
  | value => String.ofList value

/-- Takes settings by their letters. -/
def takeLetters (reading : Reading) : List Char → Except UsageError Reading
  | [] => .ok reading
  | letter :: others =>
      match Setting.lettered? settings letter with
      | none => .error .unknownArgument
      | some setting =>
          if setting.arity = .switch then do
            let reading ← reading.complete valid setting []
            takeLetters reading others
          else if others.isEmpty then reading.await valid setting
          else reading.complete valid setting [attached others]

/-- Takes a word without a hyphen as a value of the setting that waits. -/
def takeValue (reading : Reading) (word : String) : Except UsageError Reading :=
  match reading.waiting with
  | none => .error .unknownArgument
  | some (setting, values) =>
      if setting.arity = .list ∨ values.isEmpty then
        .ok { reading with waiting := some (setting, values ++ [word]) }
      else .error .unknownArgument

end Reading

/-- The long name in a word after its two hyphens, and the value after an equals sign. -/
def splitLong (letters : List Char) : String × Option String :=
  let name := String.ofList (letters.takeWhile (· != '='))
  match letters.dropWhile (· != '=') with
  | [] => (name, none)
  | _ :: value => (name, some (String.ofList value))

/-- Reads words one after the other. -/
def readWords (settings : List Setting) (valid : Setting → String → Bool) (reading : Reading) :
    List String → Except UsageError Assignments
  | [] => reading.settle valid
  | word :: words =>
      match word.toList with
      | ['-', '-'] => if words.isEmpty then reading.settle valid else .error .unknownArgument
      | '-' :: '-' :: letters => do
          let (name, value) := splitLong letters
          let reading ← reading.takeLong settings valid name value
          readWords settings valid reading words
      | '-' :: letter :: letters => do
          let reading ← reading.takeLetters settings valid (letter :: letters)
          readWords settings valid reading words
      | _ => do
          let reading ← reading.takeValue word
          readWords settings valid reading words

end SdkClients.CommandLine
