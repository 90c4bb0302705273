import SdkClients.Jq.Filter

set_option autoImplicit false

/-!
Names that a filter uses without a definition.

Of the filters that the language defines beforehand only some are known here; a name that
is not among them counts as missing. Predefined filters are told apart by name and number
of arguments. A variable is defined inside the body of its binding. Missing names are
listed in the order in which they stand in the filter, with two exceptions: a call comes
after its arguments, and the last branch of a condition comes before the condition.
-/

namespace SdkClients.Jq

/-- A name without a definition. -/
inductive Undefined where
  | filter (name : String) (arity : Nat)
  | variable (name : String)
deriving DecidableEq, Repr

/-- A missing name as it is reported, and what was looked for under it. -/
def Undefined.described : Undefined → String × String
  | .filter name arity => (name, "Filter(" ++ toString arity ++ ")")
  | .variable name => ("$" ++ name, "Var")

/-- The predefined filters that are known here. -/
def predefined : List (String × Nat) :=
  [("empty", 0), ("error", 0), ("error", 1), ("not", 0), ("nan", 0), ("infinite", 0),
    ("null", 0), ("true", 0), ("false", 0), ("length", 0), ("keys", 0), ("reverse", 0),
    ("first", 0), ("last", 0), ("first", 1), ("last", 1), ("add", 0), ("add", 1),
    ("flatten", 0), ("flatten", 1), ("numbers", 0), ("map", 1), ("select", 1), ("range", 1),
    ("range", 2), ("range", 3), ("recurse", 0)]

namespace Filter

mutual

/-- The missing names of a filter under some bound variables. -/
def undefined (bound : List String) : Filter → List Undefined
  | .identity => []
  | .recurse => []
  | .number _ => []
  | .string _ => []
  | .emptyArray => []
  | .variable name => if bound.contains name then [] else [.variable name]
  | .call name arguments =>
      undefinedList bound arguments ++
        if predefined.contains (name, arguments.length) then []
        else [.filter name arguments.length]
  | .collect body => undefined bound body
  | .construct entries => undefinedEntries bound entries
  | .negate operand => undefined bound operand
  | .pipe first second => undefined bound first ++ undefined bound second
  | .comma first second => undefined bound first ++ undefined bound second
  | .otherwise first second => undefined bound first ++ undefined bound second
  | .join _ left right => undefined bound left ++ undefined bound right
  | .bind source name body => undefined bound source ++ undefined (name :: bound) body
  | .reduce source name arguments =>
      if arguments.length < 2 then [.filter "reduce" arguments.length]
      else
        undefined bound source ++ undefinedRun bound name arguments ++
          if arguments.length = 2 then [] else [.filter "reduce" arguments.length]
  | .branch condition yes no =>
      undefined bound no ++ undefined bound condition ++ undefined bound yes
  | .attempt body => undefined bound body
  | .path start steps => undefined bound start ++ undefinedSteps bound steps

def undefinedList (bound : List String) : List Filter → List Undefined
  | [] => []
  | filter :: others => undefined bound filter ++ undefinedList bound others

/-- The start of a run does not see its variable, and the update does. -/
def undefinedRun (bound : List String) (name : String) : List Filter → List Undefined
  | start :: update :: _ => undefined bound start ++ undefined (name :: bound) update
  | _ => []

def undefinedEntries (bound : List String) : List (Filter × Filter) → List Undefined
  | [] => []
  | (key, value) :: others =>
      undefined bound key ++ undefined bound value ++ undefinedEntries bound others

def undefinedSteps (bound : List String) : List (Step Filter × Bool) → List Undefined
  | [] => []
  | (.index key, _) :: others => undefined bound key ++ undefinedSteps bound others
  | (.slice first past, _) :: others =>
      undefinedOption bound first ++ undefinedOption bound past ++ undefinedSteps bound others
  | (.iterate, _) :: others => undefinedSteps bound others

def undefinedOption (bound : List String) : Option Filter → List Undefined
  | none => []
  | some filter => undefined bound filter

end

end Filter

end SdkClients.Jq
