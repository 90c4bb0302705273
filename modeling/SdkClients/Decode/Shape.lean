import SdkClients.Decode.Failure

set_option autoImplicit false

/-!
Reading the shapes that documents are made of: strings, booleans, optional values, lists,
maps and records.

A `Reader` takes a node to a meaning or to the first failure in document order. A record
is an object with declared fields, where undeclared ones are skipped, or an array that
holds the fields in their declared order and may end early.
-/

namespace SdkClients.Decode

open Json (Node Items Entries)

/-- Gives the meaning of a node, or the first failure in it. -/
abbrev Reader (α : Type) := Node → Except Failure α

/-- The failure of a node of the wrong type. It points behind a scalar and in front of an
array or object; text that is no value has no type and keeps its own fault. -/
def mismatch (expected : Expected) : Node → Failure
  | .null after => .here (.wrongType .null expected) after
  | .bool value after => .here (.wrongType (.bool value) expected) after
  | .number value after => .here (.wrongType (.number value) expected) after
  | .string text after => .here (.wrongType (.string text) expected) after
  | .array start _ => .here (.wrongType .array expected) start
  | .object start _ => .here (.wrongType .object expected) start
  | .tooDeep _ inner => mismatch expected inner
  | .unreadable read _ => .ofMalformed read

/-! ### Scalars -/

def readString : Reader String
  | .string text _ => .ok text
  | node => .error (mismatch .string node)

def readBool : Reader Bool
  | .bool value _ => .ok value
  | node => .error (mismatch .boolean node)

/-- Null stands for an absent value. -/
def readOption {α : Type} (read : Reader α) : Reader (Option α)
  | .null _ => .ok none
  | node => (read node).map some

/-! ### Lists and maps -/

/-- The items from a given position on. -/
def readItems {α : Type} (read : Reader α) (position : Nat) : Items → Except Failure (List α)
  | .done _ => .ok []
  | .item _ _ node rest => do
      let value ← (read node).mapError fun failure =>
        (failure.under (.index position)).orAt rest.mark
      let others ← readItems read (position + 1) rest
      return value :: others
  | .broken _ _ malformed _ => .error (.ofMalformed malformed)

def readList {α : Type} (read : Reader α) : Reader (List α)
  | .array _ items => readItems read 0 items
  | .tooDeep limit (.array _ _) => .error (.ofMalformed limit)
  | node => .error (mismatch .list node)

/-- The key of an entry; a key that cannot be read has no name to put into the path. -/
def readKey (key : Except Json.Malformed String) : Except Failure String :=
  key.mapError fun malformed => (Failure.ofMalformed malformed).under .unnamed

/-- The entries as pairs, repeated keys included. -/
def readPairs {α : Type} (read : Reader α) : Entries → Except Failure (List (String × α))
  | .done _ => .ok []
  | .entry _ key _ node rest => do
      let key ← readKey key
      let value ← (read node).mapError fun failure => (failure.under (.field key)).orAt rest.mark
      let others ← readPairs read rest
      return (key, value) :: others
  | .noColon _ key _ malformed => do
      let _ ← readKey key
      throw (.ofMalformed malformed)
  | .broken _ malformed _ => .error ((Failure.ofMalformed malformed).under .unnamed)

/-- A map keeps the first place and the last value of a repeated key. -/
def readMap {α : Type} (read : Reader α) : Reader (List (String × α))
  | .object _ entries => (readPairs read entries).map Keyed.ofList
  | .tooDeep limit (.object _ _) => .error (.ofMalformed limit)
  | node => .error (mismatch .map node)

/-! ### Records -/

/-- A declared field of a record that is collected in a draft. -/
structure Field (δ : Type) where
  name : String
  required : Bool
  isSet : δ → Bool
  read : δ → Reader δ

/-- A record: its name in messages, its fields in order, and how a draft is completed. -/
structure Record (δ α : Type) where
  title : String
  fields : List (Field δ)
  empty : δ
  complete : δ → Except Cause α

namespace Record

variable {δ α : Type}

/-- Sets fields from the entries of an object and completes the draft at their end. -/
def readEntries (record : Record δ α) (draft : δ) : Entries → Except Failure α
  | .done mark => (record.complete draft).mapError (Failure.here · mark)
  | .entry _ key keyMark node rest => do
      let key ← readKey key
      match record.fields.find? (fun field => field.name == key) with
      | some field =>
          if field.isSet draft then throw (.here (.duplicateField key) keyMark)
          let draft ← (field.read draft node).mapError fun failure =>
            (failure.under (.field key)).orAt rest.mark
          record.readEntries draft rest
      | none =>
          match node.skip with
          | some malformed => throw ((Failure.ofMalformed malformed).under (.field key))
          | none => record.readEntries draft rest
  | .noColon _ key keyMark malformed => do
      let key ← readKey key
      match record.fields.find? (fun field => field.name == key) with
      | some field =>
          if field.isSet draft then throw (.here (.duplicateField key) keyMark)
          throw (.ofMalformed malformed)
      | none => throw (.ofMalformed malformed)
  | .broken _ malformed _ => .error ((Failure.ofMalformed malformed).under .unnamed)

/-- The failure of an array with more items than fields. -/
def surplusFailure (position : Nat) (surplus : Json.Surplus) (count : Nat) : Failure :=
  match surplus with
  | .fault malformed => .ofMalformed malformed
  | .fewerWanted => .here (.tooLong (position + count)) none
  | .countWanted => .here (.tooLongFor (position + count) position) none

/-- Sets the given fields from items, the first of which stands at the given position. -/
def readFields (record : Record δ α) (position : Nat) :
    List (Field δ) → δ → Items → Except Failure α
  | [], draft, .done mark => (record.complete draft).mapError (Failure.here · mark)
  | [], _, items@(.item _ surplus _ _) => .error (surplusFailure position surplus items.count)
  | [], _, .broken _ surplus _ _ => .error (surplusFailure position surplus 0)
  | field :: fields, draft, .done mark =>
      if field.required then
        .error (.here (.tooShort position record.title record.fields.length) mark)
      else readFields record (position + 1) fields draft (.done mark)
  | field :: fields, draft, .item _ _ node rest => do
      let draft ← (field.read draft node).mapError fun failure =>
        (failure.under (.index position)).orAt rest.mark
      readFields record (position + 1) fields draft rest
  | _ :: _, _, .broken _ _ malformed _ => .error (.ofMalformed malformed)

/-- A record from an object or from an array. -/
def read (record : Record δ α) : Reader α
  | .object _ entries => record.readEntries record.empty entries
  | .array _ items => record.readFields 0 record.fields record.empty items
  | .tooDeep limit _ => .error (.ofMalformed limit)
  | node => .error (mismatch (.record record.title) node)

end Record

end SdkClients.Decode
