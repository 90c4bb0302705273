import SdkClients.Jq.Value

set_option autoImplicit false

/-!
What filters give.

An outcome lists values and errors in the order in which they arise. An error does not
end it: what follows is there for a filter that drops errors. While filters run, the
arrays and objects they make get numbers that tell them apart.
-/

namespace SdkClients.Jq

/-- Values, and errors in their places. -/
abbrev Outcome := List (Option Value)

/-- A calculation that may make containers; its state is the next free identity. -/
abbrev Making (α : Type) := StateM Nat α

namespace Making

/-- An identity that no other container has. -/
def identity : Making Nat := modifyGet fun next => (next, next + 1)

def array (items : List Value) : Making Value := do
  return .array (some (← identity)) items

def object (entries : List (String × Value)) : Making Value := do
  return .object (some (← identity)) entries

/-- The result of a calculation that starts with no containers made. -/
def result {α : Type} (making : Making α) : α := (making.run 0).1

end Making

namespace Outcome

/-- An error and nothing else. -/
def failure : Outcome := [none]

/-- One value. -/
def one (value : Value) : Outcome := [some value]

/-- Several values. -/
def many (values : List Value) : Outcome := values.map some

/-- All values, unless there is an error. -/
def values? (outcome : Outcome) : Option (List Value) := outcome.mapM id

/-- The values in front of the first error. -/
def valuesBeforeError (outcome : Outcome) : List Value :=
  (outcome.takeWhile Option.isSome).filterMap id

/-- Whether there is an error. -/
def hasError (outcome : Outcome) : Bool := outcome.any Option.isNone

/-- The outcome without its errors. -/
def withoutErrors (outcome : Outcome) : Outcome := outcome.filter Option.isSome

/-- The outcome up to and with its first error. -/
def upToError (outcome : Outcome) : Outcome :=
  outcome.takeWhile Option.isSome ++ (outcome.dropWhile Option.isSome).take 1

/-- Goes on from every entry, be it a value or an error. -/
def forEach (outcome : Outcome) (next : Option Value → Making Outcome) : Making Outcome := do
  let parts ← outcome.mapM next
  return parts.flatten

/-- Goes on from every value; an error stays where it is. -/
def andThen (outcome : Outcome) (next : Value → Making Outcome) : Making Outcome :=
  outcome.forEach fun
    | some value => next value
    | none => return failure

/-- The outcome of an array of all values; an error takes its place. -/
def collected (outcome : Outcome) : Making Outcome :=
  match outcome.values? with
  | some items => do return one (← Making.array items)
  | none => return failure

end Outcome

end SdkClients.Jq
