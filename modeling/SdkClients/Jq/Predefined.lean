import SdkClients.Jq.Filter
import SdkClients.Jq.Outcome

set_option autoImplicit false

/-!
Operations on values, and the predefined filters that are known here.

The arguments of a predefined filter are filters themselves: they are given as functions
from the input to an outcome. Where an argument stands for a value, the filter goes
through all values of the argument.
-/

namespace SdkClients.Jq

namespace Value

/-! ### Parts of values -/

/-- A position counted from the front or, if negative, from the end. -/
def position? (length : Nat) (index : Int) : Option Nat :=
  if 0 ≤ index then some index.toNat
  else if -index ≤ length then some (length + index).toNat
  else none

/-- One entry or item; what is absent is null, and other values have no parts. -/
def index : Value → Value → Option Value
  | .object _ entries, .string key => some ((Keyed.get? entries key).getD .null)
  | .array _ items, .number (.whole index) =>
      some (((position? items.length index).bind (items[·]?)).getD .null)
  | _, _ => none

/-- A bound of a slice, moved into the range of positions. -/
def bound (length : Nat) (absent : Nat) : Option Value → Option Nat
  | none => some absent
  | some (.number (.whole index)) =>
      some (min length (if 0 ≤ index then index.toNat else (length + index).toNat))
  | some _ => none

/-- The part of a list between two bounds. -/
def sliceList {α : Type} (items : List α) (first past : Option Value) : Option (List α) := do
  let start ← bound items.length 0 first
  let stop ← bound items.length items.length past
  return (items.take stop).drop start

/-- The items or characters between two bounds. -/
def slice (value : Value) (first past : Option Value) : Making Outcome :=
  match value with
  | .array _ items =>
      match sliceList items first past with
      | some part => do return .one (← Making.array part)
      | none => return .failure
  | .string text =>
      match sliceList text.toList first past with
      | some part => return .one (.string (String.ofList part))
      | none => return .failure
  | _ => return .failure

/-- What one step of a path leads to. -/
def step (value : Value) : Step Value → Making Outcome
  | .index key => return [value.index key]
  | .slice first past => value.slice first past
  | .iterate => return (value.parts.map Outcome.many).getD .failure

/-- What the steps of a path lead to; a lenient step drops its own errors. -/
def follow : List (Step Value × Bool) → Value → Making Outcome
  | [], value => return .one value
  | (step, lenient) :: others, value => do
      let outcome ← value.step step
      (if lenient then outcome.withoutErrors else outcome).andThen fun value =>
        follow others value

/-! ### Joining values -/

/-- The sum of two values: null adds nothing, and an object takes over the entries of the
one on the right. -/
def plus : Value → Value → Making (Option Value)
  | .null, right => return some right
  | left, .null => return some left
  | .number left, .number right => return some (.number (left.plus right))
  | .string left, .string right => return some (.string (left ++ right))
  | .array _ left, .array _ right => some <$> Making.array (left ++ right)
  | .object _ left, .object _ right =>
      some <$> Making.object
        (right.foldl (fun entries entry => Keyed.put entry.1 entry.2 entries) left)
  | _, _ => return none

/-- The difference of two numbers, or an array without the items of another one. -/
def minus : Value → Value → Making (Option Value)
  | .number left, .number right => return some (.number (left.minus right))
  | .array _ left, .array _ right =>
      some <$> Making.array
        (left.filter fun item => !right.any fun other => item.order other == .eq)
  | _, _ => return none

/-- What an operator makes of two values. -/
def join : Operator → Value → Value → Making (Option Value)
  | .plus, left, right => left.plus right
  | .minus, left, right => left.minus right
  | .equal, left, right => return some (.bool (left.agrees right))
  | .different, left, right => return some (.bool (!left.agrees right))

/-- All values added up from left to right, starting with null. -/
def sum (values : List Value) : Making (Option Value) :=
  values.foldlM (fun
    | some total, value => total.plus value
    | none, _ => return none) (some .null)

/-- The opposite of a number. -/
def negate : Value → Option Value
  | .number value => some (.number value.negate)
  | _ => none

/-! ### Calculations on one value -/

/-- How many parts or characters there are; for a number, its distance from zero. -/
def length : Value → Option Value
  | .null => some (.number (.whole 0))
  | .bool _ => none
  | .number value => some (.number value.absolute)
  | .string text => some (.number (.whole text.length))
  | .array _ items => some (.number (.whole items.length))
  | .object _ entries => some (.number (.whole entries.length))

/-- The keys of an object in ascending order, or the positions of an array. -/
def keys : Value → Making Outcome
  | .object _ entries =>
      return .one (← Making.array ((sortedKeys (entries.map (·.1))).map .string))
  | .array _ items =>
      return .one (← Making.array
        ((List.range items.length).map fun (position : Nat) => .number (.whole position)))
  | _ => return .failure

def reverse : Value → Making Outcome
  | .array _ items => return .one (← Making.array items.reverse)
  | _ => return .failure

def zero : Value := .number (.whole 0)

def unit : Value := .number (.whole 1)

mutual

/-- A value without as many levels of nesting as a depth says: the parts of a value are
added up as arrays, after those that are arrays have lost one level less. A depth that is
not above zero changes nothing. -/
def flattenedBy (depth : Value) : Value → Making (Option Value)
  | .array identity items =>
      if depth.order zero == .gt then flattenedItems depth items (some .null)
      else return some (.array identity items)
  | .object identity entries =>
      if depth.order zero == .gt then flattenedEntries depth entries (some .null)
      else return some (.object identity entries)
  | value => return if depth.order zero == .gt then none else some value

/-- One part, as an array. -/
def flattenedPart (depth : Value) : Value → Making (Option Value)
  | .array identity items => do
      match ← depth.minus unit with
      | some less => flattenedBy less (.array identity items)
      | none => return none
  | value => some <$> Making.array [value]

/-- A total with the items of an array added. -/
def flattenedItems (depth : Value) : List Value → Option Value → Making (Option Value)
  | [], total => return total
  | item :: others, total => do
      let part ← flattenedPart depth item
      match total, part with
      | some total, some part => flattenedItems depth others (← total.plus part)
      | _, _ => return none

/-- A total with the values of an object added. -/
def flattenedEntries (depth : Value) :
    List (String × Value) → Option Value → Making (Option Value)
  | [], total => return total
  | (_, value) :: others, total => do
      let part ← flattenedPart depth value
      match total, part with
      | some total, some part => flattenedEntries depth others (← total.plus part)
      | _, _ => return none

end

/-! ### Ranges -/

/-- Whether a value has not reached the end of a range. A range with positive steps goes up
to its end, one with negative steps goes down to it. -/
def isBefore (value past step : Value) : Bool :=
  match step.order zero with
  | .gt => value.order past == .lt
  | .lt => value.order past == .gt
  | .eq => value.order past != .eq

/-- The values of a range from one value on, after those gathered in reverse. A step that
cannot be made is an error at the end. -/
def rangeFrom (past step : Value) : Nat → Outcome → Value → Making Outcome
  | 0, gathered, _ => return gathered.reverse
  | fuel + 1, gathered, value =>
      if value.isBefore past step then do
        match ← value.plus step with
        | some next => rangeFrom past step fuel (some value :: gathered) next
        | none => return (none :: some value :: gathered).reverse
      else return gathered.reverse

/-- A number for measuring distances; null counts as zero. -/
def measure : Value → Option Number
  | .null => some (.whole 0)
  | .number value => some value
  | _ => none

/-- The values from a first one in equal steps, as long as the end is not reached. Twice
the number of steps that fit in between bounds the fuel, so a range that never reaches its
end is cut off after two values. -/
def range (first past step : Value) : Making Outcome :=
  let steps := match first.measure, past.measure, step.measure with
    | some first, some past, some step => first.stepsBetween past step
    | _, _, _ => 0
  rangeFrom past step (2 * steps + 2) [] first

end Value

/-! ### Predefined filters -/

/-- A predefined filter without arguments. -/
def callPlain (name : String) (input : Value) : Making Outcome :=
  match name with
  | "null" => return .one .null
  | "true" => return .one (.bool true)
  | "false" => return .one (.bool false)
  | "nan" => return .one (.number (.real Binary64.notANumber))
  | "infinite" => return .one (.number (.real Binary64.infinity))
  | "empty" => return []
  | "not" => return .one (.bool !input.isTruthy)
  | "length" => return [input.length]
  | "keys" => input.keys
  | "reverse" => input.reverse
  | "first" => return [input.index (.number (.whole 0))]
  | "last" => return [input.index (.number (.whole (-1)))]
  | "add" =>
      match input.parts with
      | some parts => do return [← Value.sum parts]
      | none => return .failure
  | "flatten" => return .one (← Making.array input.flattened)
  | "recurse" => return .many input.recursively
  | "numbers" =>
      match input with
      | .number _ => return .one input
      | _ => return []
  | _ => return .failure

/-- A predefined filter with one argument. -/
def callUnary (name : String) (input : Value) (argument : Value → Making Outcome) :
    Making Outcome :=
  match name with
  | "map" =>
      match input.parts with
      | none => return .failure
      | some parts => do
          let outcome ← (Outcome.many parts).andThen argument
          outcome.collected
  | "select" => do
      let outcome ← argument input
      outcome.andThen fun test => return if test.isTruthy then .one input else []
  | "range" => do
      let outcome ← argument input
      outcome.andThen fun past => Value.range .zero past .unit
  | "first" => do
      let outcome ← argument input
      return outcome.take 1
  | "last" => do
      let outcome ← argument input
      return match outcome.values? with
        | some values => .many values.getLast?.toList
        | none => .failure
  | "add" => do
      let outcome ← argument input
      match outcome.values? with
      | some values => return [← Value.sum values]
      | none => return .failure
  | "flatten" => do
      let outcome ← argument input
      outcome.andThen fun depth => do return [← Value.flattenedBy depth input]
  | "error" => do
      let outcome ← argument input
      return if outcome.isEmpty then .one input else .failure
  | _ => return .failure

/-- A predefined filter with two arguments. -/
def callBinary (name : String) (input : Value) (first second : Value → Making Outcome) :
    Making Outcome :=
  match name with
  | "range" => do
      let starts ← first input
      starts.andThen fun start => do
        let ends ← second input
        ends.andThen fun past => Value.range start past .unit
  | _ => return .failure

/-- A predefined filter with three arguments. -/
def callTernary (name : String) (input : Value) (first second third : Value → Making Outcome) :
    Making Outcome :=
  match name with
  | "range" => do
      let starts ← first input
      starts.andThen fun start => do
        let ends ← second input
        ends.andThen fun past => do
          let steps ← third input
          steps.andThen fun step => Value.range start past step
  | _ => return .failure

end SdkClients.Jq
