import SdkClients.Proofs.Json.Finished
import SdkClients.Proofs.Nesting
import SdkClients.Proofs.Pointwise

set_option autoImplicit false

/-!
Plain values as alternatives tried in order.

A document value does not say what kind of plain value it is. The kinds are tried one after the
other: null, boolean, number, string, list, named entries; and a number is an integer of 64 bits
before it is a binary number. Each document value falls through to the kind of its own shape, at
every depth, so that the first alternative that accepts it is the plain value that is read.
-/

namespace SdkClients.Decode

open Json (Value)

/-- What the first alternative that accepts a value makes of it. -/
def firstOf {α β : Type} (alternatives : List (α → Option β)) (value : α) : Option β :=
  alternatives.findSome? fun alternative => alternative value

/-! ### Numbers -/

def asInteger : Value → Option Numeric
  | .number (.integer value) =>
      if Numeric.fitsInteger value then some (.integer (Int64.ofInt value)) else none
  | _ => none

/-- Integers are numbers too, and become the nearest binary number. -/
def asReal : Value → Option Numeric
  | .number (.integer value) => some (.real (Binary64.ofInt value))
  | .number (.real value) => some (.real value)
  | _ => none

def asNumeric : Value → Option Numeric := firstOf [asInteger, asReal]

private theorem asNumeric_number (number : Json.Number) :
    asNumeric (.number number) = some (.ofNumber number) := by
  cases number with
  | real value => rfl
  | integer value =>
      rw [Numeric.ofNumber]
      by_cases fits : Numeric.fitsInteger value
      · simp only [asNumeric, firstOf, List.findSome?_cons, asInteger, fits, if_true]
      · simp only [asNumeric, firstOf, List.findSome?_cons, asInteger, asReal, fits,
          Bool.false_eq_true, if_false]

/-! ### Plain values -/

def asNull : Value → Option Normalized
  | .null => some .null
  | _ => none

def asBool : Value → Option Normalized
  | .bool value => some (.bool value)
  | _ => none

def asNumber (value : Value) : Option Normalized := (asNumeric value).map .number

def asString : Value → Option Normalized
  | .string text => some (.string text)
  | _ => none

/-- A list whose items are all accepted. -/
def asArray (inner : Value → Option Normalized) : Value → Option Normalized
  | .array items => (items.mapM inner).map .array
  | _ => none

/-- Named entries that are all accepted; of a repeated name the first place and the last value. -/
def asObject (inner : Value → Option Normalized) : Value → Option Normalized
  | .object entries =>
      (entries.mapM fun entry => (inner entry.2).map fun value => (entry.1, value)).map
        fun entries => .object (Keyed.ofList entries)
  | _ => none

/-- The kinds of plain values in the order in which they are tried. -/
def plainAlternatives (inner : Value → Option Normalized) : List (Value → Option Normalized) :=
  [asNull, asBool, asNumber, asString, asArray inner, asObject inner]

/-- The plain value of a document value with at most the given number of levels. -/
def firstPlainWithin : Nat → Value → Option Normalized
  | 0, _ => none
  | levels + 1, value => firstOf (plainAlternatives (firstPlainWithin levels)) value

/-- The plain value that the first alternative makes of a document value. -/
def firstPlain (value : Value) : Option Normalized := firstPlainWithin (value.height + 1) value

private theorem firstOf_array (inner : Value → Option Normalized) (items : List Value) :
    firstOf (plainAlternatives inner) (.array items) = asArray inner (.array items) := by
  cases accepted : asArray inner (.array items) with
  | none => simp only [firstOf, plainAlternatives, List.findSome?_cons, accepted]; rfl
  | some value => simp only [firstOf, plainAlternatives, List.findSome?_cons, accepted]; rfl

private theorem firstOf_object (inner : Value → Option Normalized)
    (entries : List (String × Value)) :
    firstOf (plainAlternatives inner) (.object entries) = asObject inner (.object entries) := by
  cases accepted : asObject inner (.object entries) with
  | none => simp only [firstOf, plainAlternatives, List.findSome?_cons, accepted]; rfl
  | some value => simp only [firstOf, plainAlternatives, List.findSome?_cons, accepted]; rfl

private theorem asArray_eq {inner : Value → Option Normalized} {items : List Value}
    (each : ∀ item ∈ items, inner item = some (.ofJson item)) :
    asArray inner (.array items) = some (.ofJson (.array items)) := by
  have accepted : items.mapM inner = some (items.map Normalized.ofJson) :=
    (mapM_congr_of_mem each).trans (List.mapM_pure (m := Option))
  rw [asArray, accepted, Normalized.ofJson, Normalized.ofJsonList_eq_map]
  rfl

private theorem asObject_eq {inner : Value → Option Normalized} {entries : List (String × Value)}
    (each : ∀ entry ∈ entries, inner entry.2 = some (.ofJson entry.2)) :
    asObject inner (.object entries) = some (.ofJson (.object entries)) := by
  have accepted : (entries.mapM fun entry => (inner entry.2).map fun value => (entry.1, value)) =
      some (entries.map fun entry => (entry.1, Normalized.ofJson entry.2)) := by
    refine (mapM_congr_of_mem fun entry member => ?_).trans (List.mapM_pure (m := Option))
    rw [each entry member]
    rfl
  rw [asObject, accepted, Normalized.ofJson, Normalized.ofJsonEntries_eq_map]
  rfl

private theorem firstPlainWithin_eq (levels : Nat) (value : Value)
    (enough : value.height < levels) :
    firstPlainWithin levels value = some (.ofJson value) := by
  induction levels generalizing value with
  | zero => exact absurd enough (Nat.not_lt_zero _)
  | succ levels ih =>
      rw [firstPlainWithin]
      cases value with
      | null | bool | string => rfl
      | number number =>
          -- Null and boolean come first, but neither accepts a number.
          have accepted : asNumber (.number number) = some (.number (.ofNumber number)) :=
            congrArg (Option.map Normalized.number) (asNumeric_number number)
          simp only [firstOf, plainAlternatives, List.findSome?_cons, accepted]
          rfl
      | array items =>
          rw [Value.height] at enough
          rw [firstOf_array]
          refine asArray_eq fun item member => ih item ?_
          have lower := Value.height_le_of_mem_items member
          omega
      | object entries =>
          rw [Value.height] at enough
          rw [firstOf_object]
          refine asObject_eq fun entry member => ih entry.2 ?_
          have lower := Value.height_le_of_mem_entries member
          omega

/-- Some alternative accepts every document value, and the first one gives its plain value. -/
theorem firstPlain_eq (value : Value) : firstPlain value = some (.ofJson value) :=
  firstPlainWithin_eq _ value (Nat.lt_succ_self _)

end SdkClients.Decode
