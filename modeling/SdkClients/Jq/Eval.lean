import SdkClients.Jq.Predefined

set_option autoImplicit false

/-!
What filters of the known forms make of a value.

Where two filters meet, the entries of the left one are gone through first, and the right
one runs once for each of them. An error counts as an entry: joined with a value it is an
error again, and joined with nothing it is gone. The keys of a path are settled before the
first step is made. Evaluation follows the structure of the filter, which the known forms
allow; a range without an end, which goes on for ever in the language, is cut off.
-/

namespace SdkClients.Jq.Filter

/-- Variables with their values, the innermost first. -/
abbrev Scope := List (String × Value)

/-- All ways to put one of some steps in front of one of some paths; an error on either
side is an error. -/
def prepend (lenient : Bool) (steps : List (Option (Step Value)))
    (routes : List (Option (List (Step Value × Bool)))) :
    List (Option (List (Step Value × Bool))) :=
  steps.flatMap fun step => routes.map fun route => do
    return (← step, lenient) :: (← route)

/-- The entries of an object with one more, unless one of the parts is an error or the key
is no string. -/
def extend (built : Option (List (String × Value))) (key value : Option Value) :
    Option (List (String × Value)) :=
  match built, key, value with
  | some entries, some (.string name), some value => some (Keyed.put name value entries)
  | _, _, _ => none

mutual

/-- The outcome of a filter on a value. -/
def eval (scope : Scope) : Filter → Value → Making Outcome
  | .identity, input => return .one input
  | .recurse, input => return .many input.recursively
  | .number value, _ => return .one (.number value)
  | .string text, _ => return .one (.string text)
  | .variable name, _ => return [Keyed.get? scope name]
  | .call name arguments, input => evalCall scope name arguments input
  | .emptyArray, _ => return .one (← Making.array [])
  | .collect body, input => do
      let outcome ← eval scope body input
      outcome.collected
  | .construct entries, input => evalEntries scope entries input (some [])
  | .negate operand, input => do
      let outcome ← eval scope operand input
      outcome.andThen fun value => return [value.negate]
  | .pipe first second, input => do
      let outcome ← eval scope first input
      outcome.andThen fun value => eval scope second value
  | .comma first second, input => do
      let left ← eval scope first input
      let right ← eval scope second input
      return left ++ right
  | .otherwise first second, input => do
      let outcome ← eval scope first input
      let kept := outcome.filter fun entry => (entry.map Value.isTruthy).getD true
      if kept.isEmpty then eval scope second input else return kept
  | .join operator left right, input => do
      let lefts ← eval scope left input
      lefts.forEach fun left => do
        let rights ← eval scope right input
        rights.forEach fun right =>
          match left, right with
          | some left, some right => do return [← Value.join operator left right]
          | _, _ => return .failure
  | .bind source name body, input => do
      let outcome ← eval scope source input
      outcome.andThen fun value => eval ((name, value) :: scope) body input
  | .reduce source name arguments, input => do
      let outcome ← eval scope source input
      evalRun scope name outcome arguments input
  | .branch condition yes no, input => do
      let outcome ← eval scope condition input
      outcome.andThen fun test =>
        if test.isTruthy then eval scope yes input else eval scope no input
  | .attempt body, input => do
      let outcome ← eval scope body input
      return outcome.withoutErrors
  | .path start steps, input => do
      let outcome ← eval scope start input
      let routes ← evalSteps scope steps input
      outcome.andThen fun value => do
        let ends ← routes.mapM fun
          | some route => value.follow route
          | none => return Outcome.failure
        return ends.flatten

/-- The steps of a path with all combinations of values for their keys. -/
def evalSteps (scope : Scope) :
    List (Step Filter × Bool) → Value → Making (List (Option (List (Step Value × Bool))))
  | [], _ => return [some []]
  | (.index key, lenient) :: others, input => do
      let keys ← eval scope key input
      let routes ← evalSteps scope others input
      return prepend lenient (keys.map (·.map .index)) routes
  | (.slice first past, lenient) :: others, input => do
      let firsts ← evalBound scope first input
      let pasts ← evalBound scope past input
      let routes ← evalSteps scope others input
      let slices := firsts.flatMap fun first => pasts.map fun past => do
        return .slice (← first) (← past)
      return prepend lenient slices routes
  | (.iterate, lenient) :: others, input => do
      let routes ← evalSteps scope others input
      return prepend lenient [some .iterate] routes

/-- A bound of a slice; one that is left out stays out. -/
def evalBound (scope : Scope) : Option Filter → Value → Making (List (Option (Option Value)))
  | none, _ => return [some none]
  | some filter, input => do
      let outcome ← eval scope filter input
      return outcome.map (·.map some)

/-- A call of a predefined filter. -/
def evalCall (scope : Scope) (name : String) : List Filter → Value → Making Outcome
  | [], input => callPlain name input
  | [argument], input => callUnary name input fun value => eval scope argument value
  | [first, second], input =>
      callBinary name input (fun value => eval scope first value) fun value =>
        eval scope second value
  | [first, second, third], input =>
      callTernary name input (fun value => eval scope first value)
        (fun value => eval scope second value) fun value => eval scope third value
  | _ :: _ :: _ :: _ :: _, _ => return .failure

/-- A run through some entries: every state goes on to the values of the update, up to its
first error. An entry that is an error is the end of every state. -/
def evalRun (scope : Scope) (name : String) (entries : Outcome) :
    List Filter → Value → Making Outcome
  | [start, update], input => do
      let states ← eval scope start input
      entries.foldlM (fun states entry =>
        states.andThen fun state =>
          match entry with
          | some value => do
              let outcome ← eval ((name, value) :: scope) update state
              return outcome.upToError
          | none => return .failure) states
  | _, _ => return .failure

/-- The objects with the given entries and all combinations of values for the others. -/
def evalEntries (scope : Scope) :
    List (Filter × Filter) → Value → Option (List (String × Value)) → Making Outcome
  | [], _, some built => do return .one (← Making.object built)
  | [], _, none => return .failure
  | (key, value) :: others, input, built => do
      let keys ← eval scope key input
      keys.forEach fun key => do
        let values ← eval scope value input
        values.forEach fun value => evalEntries scope others input (extend built key value)

end

/-- The outcome of a filter that starts with no variables and no containers made. -/
def outcome (filter : Filter) (input : Value) : Outcome := (filter.eval [] input).result

end SdkClients.Jq.Filter
