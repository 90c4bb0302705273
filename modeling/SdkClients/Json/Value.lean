import SdkClients.Binary64
import SdkClients.Keyed

set_option autoImplicit false

/-!
Document values.

An object is the list of its entries in the order in which they were written. `collapse`
turns a value with repeated keys into one with distinct keys: at every depth a key keeps
its first place and its last value.
-/

namespace SdkClients.Json

/-- A number of a document: integers are exact. -/
inductive Number where
  | integer (value : Int)
  | real (value : Binary64)
deriving DecidableEq, Repr

/-- A document value. -/
inductive Value where
  | null
  | bool (value : Bool)
  | number (value : Number)
  | string (text : String)
  | array (items : List Value)
  | object (entries : List (String × Value))
deriving Repr, Inhabited

namespace Value

mutual

/-- The same value with distinct keys in every object. -/
def collapse : Value → Value
  | .array items => .array (collapseItems items)
  | .object entries => .object (Keyed.ofList (collapseEntries entries))
  | value => value

def collapseItems : List Value → List Value
  | [] => []
  | item :: others => item.collapse :: collapseItems others

def collapseEntries : List (String × Value) → List (String × Value)
  | [] => []
  | (key, value) :: others => (key, value.collapse) :: collapseEntries others

end

mutual

/-- How many arrays and objects stand inside one another at most. -/
def height : Value → Nat
  | .array items => heightOfItems items + 1
  | .object entries => heightOfEntries entries + 1
  | _ => 0

def heightOfItems : List Value → Nat
  | [] => 0
  | item :: others => max item.height (heightOfItems others)

def heightOfEntries : List (String × Value) → Nat
  | [] => 0
  | (_, value) :: others => max value.height (heightOfEntries others)

end

end Value

end SdkClients.Json
