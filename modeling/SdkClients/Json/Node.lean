import SdkClients.Json.Fault
import SdkClients.Json.Path
import SdkClients.Json.Value

set_option autoImplicit false

/-!
Documents as located trees.

A node is a document value together with the places that messages refer to. A tree can
come from a text, where it also records every fault at the point at which it would stop a
reader, or from a finished value, where it has neither places nor faults.

Two ways of going over a tree are defined here. `Node.skip` looks for the first fault that
stops someone who does not want the node's meaning. `Node.value` collects the meaning and
reports the first fault together with its path.
-/

namespace SdkClients.Json

/-- What is reported when an array has more items than are wanted. -/
inductive Surplus where
  /-- A fault of the text at the place where the array should have ended. -/
  | fault (malformed : Malformed)
  /-- The whole length of the array against a statement that there should be fewer. -/
  | fewerWanted
  /-- The whole length of the array against the number that was wanted. -/
  | countWanted
deriving Repr

mutual

/-- A document value with its places. -/
inductive Node where
  /-- A scalar and the place after it. -/
  | null (after : Option Position)
  | bool (value : Bool) (after : Option Position)
  | number (value : Number) (after : Option Position)
  | string (text : String) (after : Option Position)
  /-- An array or object and the place of its bracket. -/
  | array (start : Option Position) (items : Items)
  | object (start : Option Position) (entries : Entries)
  /-- An array or object inside too many others; skipping passes it all the same. -/
  | tooDeep (limit : Malformed) (inner : Node)
  /-- Text that is no value; skipping may pass it, or stop with a fault of its own. -/
  | unreadable (read : Malformed) (skip : Option Malformed)

/-- The items of an array from one of them on. The mark is the place of an error without
a place of its own that is raised when this point is reached. -/
inductive Items where
  | done (mark : Option Position)
  | item (mark : Option Position) (surplus : Surplus) (node : Node) (rest : Items)
  | broken (mark : Option Position) (surplus : Surplus) (read skip : Malformed)

/-- The entries of an object from one of them on, with marks as for items. The second mark
of an entry stands between its key and its colon. -/
inductive Entries where
  | done (mark : Option Position)
  | entry (mark : Option Position) (key : Except Malformed String) (keyMark : Option Position)
      (node : Node) (rest : Entries)
  | noColon (mark : Option Position) (key : Except Malformed String) (keyMark : Option Position)
      (malformed : Malformed)
  | broken (mark : Option Position) (read skip : Malformed)

end

/-- The place for errors raised at the head of a list of items. -/
def Items.mark : Items → Option Position
  | .done mark => mark
  | .item mark _ _ _ => mark
  | .broken mark _ _ _ => mark

/-- The place for errors raised at the head of a list of entries. -/
def Entries.mark : Entries → Option Position
  | .done mark => mark
  | .entry mark _ _ _ _ => mark
  | .noColon mark _ _ _ => mark
  | .broken mark _ _ => mark

/-- The number of items that are left. -/
def Items.count : Items → Nat
  | .item _ _ _ rest => rest.count + 1
  | _ => 0

mutual

/-- How many arrays and objects stand inside one another at most. -/
def Node.height : Node → Nat
  | .array _ items => items.height + 1
  | .object _ entries => entries.height + 1
  | .tooDeep _ inner => inner.height
  | _ => 0

def Items.height : Items → Nat
  | .item _ _ node rest => max node.height rest.height
  | _ => 0

def Entries.height : Entries → Nat
  | .entry _ _ _ node rest => max node.height rest.height
  | _ => 0

end

/-! ### Skipping -/

mutual

/-- The fault that stops someone who passes over a node. -/
def Node.skip : Node → Option Malformed
  | .array _ items => items.skip
  | .object _ entries => entries.skip
  | .tooDeep _ inner => inner.skip
  | .unreadable _ skip => skip
  | _ => none

def Items.skip : Items → Option Malformed
  | .done _ => none
  | .item _ _ node rest => node.skip.or rest.skip
  | .broken _ _ _ skip => some skip

def Entries.skip : Entries → Option Malformed
  | .done _ => none
  | .entry _ _ _ node rest => node.skip.or rest.skip
  | .noColon _ _ _ malformed => some malformed
  | .broken _ _ skip => some skip

end

/-! ### Collecting the value -/

/-- A fault of the text and the path of the node that was being read. -/
structure Unreadable where
  path : List Segment
  malformed : Malformed

/-- The same fault seen from one level further up. -/
def Unreadable.under (step : Segment) (unreadable : Unreadable) : Unreadable :=
  { unreadable with path := step :: unreadable.path }

mutual

/-- The value of a node, with repeated keys kept. -/
def Node.value : Node → Except Unreadable Value
  | .null _ => .ok .null
  | .bool value _ => .ok (.bool value)
  | .number value _ => .ok (.number value)
  | .string text _ => .ok (.string text)
  | .array _ items => (items.values 0).map .array
  | .object _ entries => entries.pairs.map .object
  | .tooDeep limit _ => .error ⟨[], limit⟩
  | .unreadable read _ => .error ⟨[], read⟩

/-- The values of the items; the first one stands at the given position. -/
def Items.values (position : Nat) : Items → Except Unreadable (List Value)
  | .done _ => .ok []
  | .item _ _ node rest => do
      let value ← node.value.mapError (Unreadable.under (.index position))
      let others ← rest.values (position + 1)
      return value :: others
  | .broken _ _ read _ => .error ⟨[], read⟩

/-- The keys and values of the entries. -/
def Entries.pairs : Entries → Except Unreadable (List (String × Value))
  | .done _ => .ok []
  | .entry _ key _ node rest => do
      let key ← key.mapError fun malformed => ⟨[.unnamed], malformed⟩
      let value ← node.value.mapError (Unreadable.under (.field key))
      let others ← rest.pairs
      return (key, value) :: others
  | .noColon _ key _ malformed => do
      let _ ← key.mapError fun malformed => (⟨[.unnamed], malformed⟩ : Unreadable)
      throw ⟨[], malformed⟩
  | .broken _ read _ => .error ⟨[.unnamed], read⟩

end

/-! ### Trees of finished values -/

mutual

/-- The tree of a value, without places; `surplus` is what its arrays report. -/
def Node.ofValue (surplus : Surplus) : Value → Node
  | .null => .null none
  | .bool value => .bool value none
  | .number value => .number value none
  | .string text => .string text none
  | .array items => .array none (Items.ofValues surplus items)
  | .object entries => .object none (Entries.ofPairs surplus entries)

def Items.ofValues (surplus : Surplus) : List Value → Items
  | [] => .done none
  | item :: others => .item none surplus (Node.ofValue surplus item) (Items.ofValues surplus others)

def Entries.ofPairs (surplus : Surplus) : List (String × Value) → Entries
  | [] => .done none
  | (key, value) :: others =>
      .entry none (.ok key) none (Node.ofValue surplus value) (Entries.ofPairs surplus others)

end

end SdkClients.Json
