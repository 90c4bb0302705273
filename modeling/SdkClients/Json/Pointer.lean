import SdkClients.Json.Value
import SdkClients.Text.Pieces

set_option autoImplicit false

/-!
Pointers into documents.

A pointer is empty, which selects the whole document, or a sequence of steps that each
start with a slash. In a step `~1` stands for a slash and `~0` for a tilde. A step names
an entry of an object or counts the items of an array from zero, without leading zeros.
-/

namespace SdkClients.Json.Pointer

/-- The text of a step with its escapes undone. -/
def unescape : List Char → List Char
  | '~' :: '0' :: others => '~' :: unescape others
  | '~' :: '1' :: others => '/' :: unescape others
  | character :: others => character :: unescape others
  | [] => []

/-- The steps of a pointer; nothing if it does not start with a slash. -/
def steps (pointer : String) : Option (List String) :=
  match Text.split '/' pointer with
  | "" :: others => some (others.map fun step => String.ofList (unescape step.toList))
  | _ => none

/-- An array index: digits only, and no zero before another digit. -/
def index? (step : String) : Option Nat :=
  match step.toList with
  | [] => none
  | digits@(first :: others) =>
      if digits.all Char.isDigit && !(first == '0' && !others.isEmpty) then
        some (digits.foldl (fun total digit => 10 * total + (digit.toNat - '0'.toNat)) 0)
      else none

/-- The part of a value that one step selects. -/
def step? (step : String) : Value → Option Value
  | .object entries => Keyed.get? entries step
  | .array items => (index? step).bind (items[·]?)
  | _ => none

/-- The part of a value that a pointer selects. -/
def select? (pointer : String) (value : Value) : Option Value :=
  match steps pointer with
  | none => none
  | some path => path.foldlM (fun part step => step? step part) value

end SdkClients.Json.Pointer
