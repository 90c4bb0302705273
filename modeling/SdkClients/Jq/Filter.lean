import SdkClients.Jq.Number

set_option autoImplicit false

/-!
Filters.

A filter takes one value to any number of values. The constructors are those forms of the
filter language that are dealt with here; definitions, comparisons by order, updates,
other loops and handlers of errors are among those left out. `call` names a predefined
filter, with its arguments. A path is a list of steps; its keys are of any type, so that
the same steps serve for filters that yield keys and for the keys themselves.
-/

namespace SdkClients.Jq

/-- The known operators between two filters that join their values. -/
inductive Operator where
  | plus
  | minus
  | equal
  | different
deriving DecidableEq, Repr

/-- A step of a path. -/
inductive Step (Key : Type) where
  | index (key : Key)
  /-- The part between two bounds, each of which can be left out. -/
  | slice (first past : Option Key)
  /-- Every item or value. -/
  | iterate
deriving Repr

/-- A filter of the known forms. The flag of a path step says whether errors of that step
are dropped. -/
inductive Filter where
  | identity
  | recurse
  | number (value : Number)
  | string (text : String)
  | variable (name : String)
  | call (name : String) (arguments : List Filter)
  /-- The values of the body in an array. -/
  | collect (body : Filter)
  | emptyArray
  | construct (entries : List (Filter × Filter))
  | negate (operand : Filter)
  | pipe (first second : Filter)
  | comma (first second : Filter)
  /-- The true values of the first filter, or else the values of the second one. -/
  | otherwise (first second : Filter)
  | join (operator : Operator) (left right : Filter)
  | bind (source : Filter) (name : String) (body : Filter)
  /-- A run through the values of the source; the arguments should be a start and an
  update. -/
  | reduce (source : Filter) (name : String) (arguments : List Filter)
  | branch (condition yes no : Filter)
  /-- The values of the body without its errors. -/
  | attempt (body : Filter)
  | path (start : Filter) (steps : List (Step Filter × Bool))
deriving Repr, Inhabited

end SdkClients.Jq
