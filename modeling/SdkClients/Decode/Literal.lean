import SdkClients.Decode.Shape
import SdkClients.Normalized

set_option autoImplicit false

/-!
Reading typed values and the models that declare them.

The kind of a typed value may stand anywhere among its fields, so the other fields are
collected first and read afterwards. What was collected has no places any more: a failure
inside it points at the whole typed value. A typed value inside a collected one may give
its kind by number as well as by tag.
-/

namespace SdkClients.Decode

open Json (Node Items Entries Value)

/-! ### Alternatives by type -/

/-- The value of a node, with repeated keys. -/
def readValue : Reader Value := fun node => node.value.mapError Failure.ofUnreadable

/-- A number is the only alternative. -/
def readNumeric : Reader Numeric := fun node => do
  match ← readValue node with
  | .number number => return .ofNumber number
  | _ => throw (.here (.noAlternative "Numeric") none)

/-- Either a string or a number. -/
def readEnumValue : Reader EnumValue := fun node => do
  match ← readValue node with
  | .string text => return .text text
  | .number number => return .number (.ofNumber number)
  | _ => throw (.here (.noAlternative "EnumValue") none)

/-- Every value is a plain value. -/
def readNormalized : Reader Normalized := fun node => (readValue node).map .ofJson

/-! ### Enumeration members -/

/-- An enumeration member whose fields may still be missing. -/
structure EnumMemberDraft where
  name : Option String
  value : Option (Option EnumValue)

def enumMemberRecord : Record EnumMemberDraft EnumMember where
  title := "struct EnumMember"
  empty := ⟨none, none⟩
  fields := [
    ⟨"name", true, fun draft => draft.name.isSome,
      fun draft node => (readString node).map fun name => { draft with name := some name }⟩,
    ⟨"value", false, fun draft => draft.value.isSome,
      fun draft node => (readOption readEnumValue node).map fun value =>
        { draft with value := some value }⟩]
  complete := fun draft =>
    match draft.name with
    | some name => .ok ⟨name, draft.value.getD none⟩
    | none => .error (.missingField "name")

def readEnumMember : Reader EnumMember := enumMemberRecord.read

/-! ### Typed values -/

/-- The kind, by its tag or, if numbers are allowed, by its position among the kinds. -/
def readKind (numbered : Bool) : Reader TypedKind
  | .string tag after =>
      match TypedKind.ofTag? tag with
      | some kind => .ok kind
      | none => .error (.here (.unknownKind tag) after)
  | node@(.number (.integer number) after) =>
      if numbered && 0 ≤ number then
        match TypedKind.all[number.toNat]? with
        | some kind => .ok kind
        | none => .error (.here (.kindOutOfRange number.toNat) after)
      else .error (mismatch .kind node)
  | node => .error (mismatch .kind node)

/-- The kind among the entries of an object, and the other entries in order. -/
def collectEntries (numbered : Bool) (kind : Option TypedKind) :
    Entries → Except Failure (TypedKind × List (String × Value))
  | .done mark =>
      match kind with
      | some kind => .ok (kind, [])
      | none => .error (.here (.missingField "kind") mark)
  | .entry _ key keyMark node rest => do
      let key ← readKey key
      if key = "kind" then
        if kind.isSome then throw (.here (.duplicateField "kind") keyMark)
        let kind ← (readKind numbered node).mapError fun failure =>
          (failure.under (.field key)).orAt rest.mark
        collectEntries numbered (some kind) rest
      else
        let value ← (readValue node).mapError (Failure.under (.field key))
        let (kind, others) ← collectEntries numbered kind rest
        return (kind, (key, value) :: others)
  | .noColon _ key keyMark malformed => do
      let key ← readKey key
      if key = "kind" && kind.isSome then throw (.here (.duplicateField "kind") keyMark)
      throw (.ofMalformed malformed)
  | .broken _ malformed _ => .error ((Failure.ofMalformed malformed).under .unnamed)

/-- The kind of a typed value and everything else in it. An array has the kind first. -/
def collect (numbered : Bool) : Node → Except Failure (TypedKind × Value)
  | .object _ entries => do
      let (kind, others) ← collectEntries numbered none entries
      return (kind, .object others)
  | .array _ (.done mark) => .error (.here (.missingField "kind") mark)
  | .array _ (.broken _ _ malformed _) => .error (.ofMalformed malformed)
  | .array _ (.item _ _ node rest) => do
      let kind ← (readKind numbered node).mapError fun failure =>
        (failure.under (.index 0)).orAt rest.mark
      let others ← (rest.values 1).mapError Failure.ofUnreadable
      return (kind, .array others)
  | .tooDeep limit _ => .error (.ofMalformed limit)
  | node => .error (mismatch .typedValue node)

/-- The single field that a kind asks for. -/
def payload {α : Type} (kind : TypedKind) (name : String) (read : Reader α) :
    Record (Option α) α where
  title := "struct variant TypedValue::" ++ kind.title
  empty := none
  fields := [⟨name, true, Option.isSome, fun _ node => (read node).map some⟩]
  complete := fun draft =>
    match draft with
    | some value => .ok value
    | none => .error (.missingField name)

/-- The kind without fields. -/
def noPayload : Record Unit Unit where
  title := "struct variant TypedValue::" ++ TypedKind.null.title
  empty := ()
  fields := []
  complete := fun _ => .ok ()

/-- What a kind makes of the rest of the typed value; `inner` reads nested typed values. -/
def readPayload (inner : Reader TypedValue) : TypedKind → Reader TypedValue
  | .stringLiteral, node =>
      ((payload .stringLiteral "value" readString).read node).map .string
  | .booleanLiteral, node =>
      ((payload .booleanLiteral "value" readBool).read node).map .boolean
  | .null, node => (noPayload.read node).map fun _ => .null
  | .numericLiteral, node =>
      ((payload .numericLiteral "value" readNumeric).read node).map .numeric
  | .enumMemberReference, node =>
      ((payload .enumMemberReference "member" readEnumMember).read node).map .enumMember
  | .arrayLiteral, node =>
      ((payload .arrayLiteral "values" (readList inner)).read node).map .array
  | .objectLiteral, node =>
      ((payload .objectLiteral "properties" (readMap inner)).read node).map .object

/-- A typed value with at most the given number of levels. Everything but the kind is read
from the collected values, so only the cause of a failure there is kept. -/
def readTypedWithin : Nat → Bool → Reader TypedValue
  | 0, _, node => .error (mismatch .typedValue node)
  | levels + 1, numbered, node => do
      let (kind, others) ← collect numbered node
      (readPayload (readTypedWithin levels true) kind (Node.ofValue .countWanted others)).mapError
        fun failure => .here failure.cause none

def readTyped : Reader TypedValue := fun node => readTypedWithin (node.height + 1) false node

/-! ### Models -/

def propertyRecord : Record (Option (Option TypedValue)) PropertyDecl where
  title := "struct PropertyDecl"
  empty := none
  fields := [⟨"defaultValue", false, Option.isSome,
    fun _ node => (readOption readTyped node).map some⟩]
  complete := fun draft => .ok ⟨draft.getD none⟩

def readProperty : Reader PropertyDecl := propertyRecord.read

/-- A model whose fields may still be missing. -/
structure ModelDraft where
  name : Option String
  properties : Option (List (String × PropertyDecl))

def modelRecord : Record ModelDraft ModelDecl where
  title := "struct ModelDecl"
  empty := ⟨none, none⟩
  fields := [
    ⟨"name", true, fun draft => draft.name.isSome,
      fun draft node => (readString node).map fun name => { draft with name := some name }⟩,
    ⟨"properties", false, fun draft => draft.properties.isSome,
      fun draft node => (readMap readProperty node).map fun properties =>
        { draft with properties := some properties }⟩]
  complete := fun draft =>
    match draft.name with
    | some name => .ok ⟨name, draft.properties.getD []⟩
    | none => .error (.missingField "name")

def readModel : Reader ModelDecl := modelRecord.read

end SdkClients.Decode
