import SdkClients.Json.Value
import SdkClients.Decimal.Layout

set_option autoImplicit false

/-!
Printing document values.

`Value.render` writes a value without blanks. `Value.renderIndented` puts every item and
entry on a line of its own, two spaces further in than the bracket that holds it; empty
arrays and objects stay on one line. Both forms write scalars alike.
-/

namespace SdkClients.Json

/-- One character of a string: quotes, backslashes and control characters are escaped. -/
def escapeCharacter (character : Char) : List Char :=
  match character with
  | '"' => ['\\', '"']
  | '\\' => ['\\', '\\']
  | '\x08' => ['\\', 'b']
  | '\x0c' => ['\\', 'f']
  | '\n' => ['\\', 'n']
  | '\r' => ['\\', 'r']
  | '\t' => ['\\', 't']
  | _ =>
      if character.toNat < 0x20 then
        ['\\', 'u', '0', '0', Nat.digitChar (character.toNat / 16),
          Nat.digitChar (character.toNat % 16)]
      else [character]

/-- A string between quotes. -/
def renderString (text : String) : String :=
  String.ofList ('"' :: text.toList.flatMap escapeCharacter ++ ['"'])

/-- A number that is not finite has no decimal form and is written as null. -/
def renderReal (number : Binary64) : String :=
  if number.isFinite then Decimal.documentLayout.render number else "null"

def Number.render : Number → String
  | .integer value => toString value
  | .real value => renderReal value

/-- Pieces between brackets, separated by commas. -/
def enclose (opening closing : String) (pieces : List String) : String :=
  opening ++ String.intercalate "," pieces ++ closing

/-- A line break followed by two spaces for every level. -/
def lineBreak (level : Nat) : String := String.ofList ('\n' :: List.replicate (2 * level) ' ')

/-- Pieces between brackets, each on its own line at the given level. -/
def encloseLines (opening closing : String) (level : Nat) (pieces : List String) : String :=
  if pieces.isEmpty then opening ++ closing
  else
    opening ++ lineBreak (level + 1) ++ String.intercalate ("," ++ lineBreak (level + 1)) pieces ++
      lineBreak level ++ closing

/-- The boolean words. -/
def renderBool (value : Bool) : String := if value then "true" else "false"

namespace Value

mutual

/-- The value on one line, without blanks. -/
def render : Value → String
  | .null => "null"
  | .bool value => renderBool value
  | .number value => value.render
  | .string text => renderString text
  | .array items => enclose "[" "]" (renderItems items)
  | .object entries => enclose "\x7b" "\x7d" (renderEntries entries)

def renderItems : List Value → List String
  | [] => []
  | item :: others => item.render :: renderItems others

def renderEntries : List (String × Value) → List String
  | [] => []
  | (key, value) :: others => (renderString key ++ ":" ++ value.render) :: renderEntries others

end

mutual

/-- The value over several lines, inside brackets of the given level. -/
def renderAt (level : Nat) : Value → String
  | .null => "null"
  | .bool value => renderBool value
  | .number value => value.render
  | .string text => renderString text
  | .array items => encloseLines "[" "]" level (itemsAt (level + 1) items)
  | .object entries => encloseLines "\x7b" "\x7d" level (entriesAt (level + 1) entries)

def itemsAt (level : Nat) : List Value → List String
  | [] => []
  | item :: others => renderAt level item :: itemsAt level others

def entriesAt (level : Nat) : List (String × Value) → List String
  | [] => []
  | (key, value) :: others =>
      (renderString key ++ ": " ++ renderAt level value) :: entriesAt level others

end

/-- The value over several lines. -/
def renderIndented (value : Value) : String := value.renderAt 0

end Value

end SdkClients.Json
