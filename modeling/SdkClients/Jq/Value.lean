import SdkClients.Jq.Number
import SdkClients.Keyed

set_option autoImplicit false

/-!
Values of filters.

They are document values with two differences: a number keeps its text until someone
calculates with it, and an array or object that a filter made has an identity. Two
containers of one identity are equal without a look inside, which matters only where they
hold a not-a-number; all others are equal if their contents are.

Values of all kinds are ordered: null, false, true, numbers, strings, arrays, objects.
-/

namespace SdkClients.Jq

/-- A value in a filter. A container that comes from a document has no identity. -/
inductive Value where
  | null
  | bool (value : Bool)
  | number (value : Number)
  | string (text : String)
  | array (identity : Option Nat) (items : List Value)
  | object (identity : Option Nat) (entries : List (String × Value))
deriving Repr, Inhabited

namespace Value

mutual

/-- The filter value of a document value. -/
def ofJson : Json.Value → Value
  | .null => .null
  | .bool value => .bool value
  | .number (.integer value) =>
      .number (if Number.fits value then .whole value else .written (toString value))
  | .number (.real value) => .number (.written (Json.renderReal value))
  | .string text => .string text
  | .array items => .array none (ofJsonList items)
  | .object entries => .object none (ofJsonEntries entries)

def ofJsonList : List Json.Value → List Value
  | [] => []
  | item :: others => ofJson item :: ofJsonList others

def ofJsonEntries : List (String × Json.Value) → List (String × Value)
  | [] => []
  | (key, value) :: others => (key, ofJson value) :: ofJsonEntries others

end

mutual

/-- The document text of a value. -/
def render : Value → String
  | .null => "null"
  | .bool value => Json.renderBool value
  | .number value => value.render
  | .string text => Json.renderString text
  | .array _ items => Json.enclose "[" "]" (renderList items)
  | .object _ entries => Json.enclose "\x7b" "\x7d" (renderEntries entries)

def renderList : List Value → List String
  | [] => []
  | item :: others => render item :: renderList others

def renderEntries : List (String × Value) → List String
  | [] => []
  | (key, value) :: others => (Json.renderString key ++ ":" ++ render value) :: renderEntries others

end

/-! ### Order and equality -/

/-- The place of a kind of value among the kinds. -/
def rank : Value → Nat
  | .null => 0
  | .bool _ => 1
  | .number _ => 2
  | .string _ => 3
  | .array _ _ => 4
  | .object _ _ => 5

/-- Keys in ascending order. -/
def sortedKeys (keys : List String) : List String :=
  keys.mergeSort fun left right => left ≤ right

/-- The first difference in a list of comparisons. -/
def firstDifference (comparisons : List Ordering) : Ordering :=
  (comparisons.find? (· != .eq)).getD .eq

mutual

/-- The order of values. Objects are ordered by their keys first, and then by the values
of the keys in ascending order. -/
def order : Value → Value → Ordering
  | .bool left, .bool right => compare left right
  | .number left, .number right => left.order right
  | .string left, .string right => compare left right
  | .array _ left, .array _ right => orderList left right
  | .object _ left, .object _ right =>
      match compare (sortedKeys (left.map (·.1))) (sortedKeys (right.map (·.1))) with
      | .eq => firstDifference (((orderEntries left right).mergeSort
          fun first second => first.1 ≤ second.1).map (·.2))
      | difference => difference
  | left, right => compare left.rank right.rank

/-- The order of lists by their first difference. -/
def orderList : List Value → List Value → Ordering
  | [], [] => .eq
  | [], _ :: _ => .lt
  | _ :: _, [] => .gt
  | left :: lefts, right :: rights =>
      match order left right with
      | .eq => orderList lefts rights
      | difference => difference

/-- Every key with the order of its two values. -/
def orderEntries :
    List (String × Value) → List (String × Value) → List (String × Ordering)
  | [], _ => []
  | (key, value) :: others, entries =>
      (key, match Keyed.get? entries key with
        | some other => order value other
        | none => .gt) :: orderEntries others entries

end

/-- Whether two identities are there and the same. -/
def sameIdentity (left right : Option Nat) : Bool := left.isSome && left == right

mutual

/-- Equality; the order of entries does not matter. -/
def agrees : Value → Value → Bool
  | .null, .null => true
  | .bool left, .bool right => left == right
  | .number left, .number right => left.order right == .eq
  | .string left, .string right => left == right
  | .array identity left, .array other right =>
      sameIdentity identity other || agreesList left right
  | .object identity left, .object other right =>
      sameIdentity identity other || (left.length == right.length && agreesEntries left right)
  | _, _ => false

def agreesList : List Value → List Value → Bool
  | [], [] => true
  | left :: lefts, right :: rights => agrees left right && agreesList lefts rights
  | _, _ => false

/-- Whether every entry has an equal one under the same key. -/
def agreesEntries : List (String × Value) → List (String × Value) → Bool
  | [], _ => true
  | (key, value) :: others, entries =>
      (match Keyed.get? entries key with
        | some other => agrees value other
        | none => false) && agreesEntries others entries

end

/-- Everything but null and false counts as true. -/
def isTruthy : Value → Bool
  | .null => false
  | .bool value => value
  | _ => true

/-! ### Parts -/

/-- The items of an array or the values of an object. -/
def parts : Value → Option (List Value)
  | .array _ items => some items
  | .object _ entries => some (entries.map (·.2))
  | _ => none

mutual

/-- The value itself and everything inside it, each in front of its own parts. -/
def recursively : Value → List Value
  | .array identity items => .array identity items :: recursivelyList items
  | .object identity entries => .object identity entries :: recursivelyEntries entries
  | value => [value]

def recursivelyList : List Value → List Value
  | [] => []
  | item :: others => recursively item ++ recursivelyList others

def recursivelyEntries : List (String × Value) → List Value
  | [] => []
  | (_, value) :: others => recursively value ++ recursivelyEntries others

end

mutual

/-- The values inside nested arrays that are no arrays themselves. -/
def flattened : Value → List Value
  | .array _ items => flattenedList items
  | value => [value]

def flattenedList : List Value → List Value
  | [] => []
  | item :: others => flattened item ++ flattenedList others

end

end Value

end SdkClients.Jq
