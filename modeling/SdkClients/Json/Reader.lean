import SdkClients.Json.Node
import SdkClients.Json.NumberLiteral
import SdkClients.Json.StringLiteral

set_option autoImplicit false

/-!
Reading a text into a located tree.

Reading never fails: faults become part of the tree, and the tree goes on behind a fault
as far as skipping can go. At most three calls follow one another without moving over a
character, so three times the length of the text is fuel enough for every call chain.

`Value.parse` reads a complete text: nothing but blanks may follow the value.
-/

namespace SdkClients.Json.Reader

/-- The greatest number of arrays and objects that may stand inside one another. -/
def depthLimit : Nat := 127

/-- Text that is no value, for reading and skipping alike; nothing after it is looked at. -/
def stopped (malformed : Malformed) : Node × Option Cursor :=
  (.unreadable malformed (some malformed), none)

/-- A scalar that was scanned, and what follows it. -/
def scalar {α : Type} (make : α → Option Position → Node) (scanned : Scanned α) :
    Node × Option Cursor :=
  match scanned.read, scanned.skip with
  | .ok meaning, .ok after => (make meaning (some after.place), some after)
  | .ok meaning, .error _ => (make meaning none, none)
  | .error read, .ok after => (.unreadable read none, some after)
  | .error read, .error skip => (.unreadable read (some skip), none)

/-- One of the three words. -/
def word (node : Option Position → Node) (letters : List Char) (cursor : Cursor) :
    Node × Option Cursor :=
  match cursor.word letters with
  | .ok after => (node (some after.place), some after)
  | .error malformed => stopped malformed

/-- Marks an array or object that stands inside too many others. -/
def limited (depth : Nat) (cursor : Cursor) (node : Node) : Node :=
  if depth < depthLimit then node else .tooDeep (cursor.faultAhead .tooDeep) node

/-- An array that should have ended at the cursor. -/
def surplusAhead (cursor : Cursor) (fault : Fault) : Surplus := .fault (cursor.faultAhead fault)

/-- Whether a number literal can start with a character. -/
def startsNumber (character : Char) : Bool := character == '-' || character.isDigit

mutual

/-- The value at the cursor, inside `depth` arrays and objects, and what follows it. -/
def nodeAt : Nat → Nat → Cursor → Node × Option Cursor
  | 0, _, cursor => stopped (cursor.faultHere .endInValue)
  | fuel + 1, depth, cursor =>
      match cursor.left with
      | [] => stopped (cursor.faultHere .endInValue)
      | 'n' :: _ => word .null ['u', 'l', 'l'] cursor.next
      | 't' :: _ => word (.bool true) ['r', 'u', 'e'] cursor.next
      | 'f' :: _ => word (.bool false) ['a', 'l', 's', 'e'] cursor.next
      | '"' :: _ => scalar .string (StringLiteral.scan cursor.next)
      | '[' :: _ =>
          let (items, after) := firstItem fuel (depth + 1) cursor.next.skipBlanks
          (limited depth cursor (.array (some cursor.place) items), after)
      | '\x7b' :: _ =>
          let (entries, after) := firstEntry fuel (depth + 1) cursor.next.skipBlanks
          (limited depth cursor (.object (some cursor.place) entries), after)
      | character :: _ =>
          if startsNumber character then scalar .number (NumberLiteral.scan cursor)
          else stopped (cursor.faultAhead .expectedValue)

/-- The items after the opening bracket. -/
def firstItem : Nat → Nat → Cursor → Items × Option Cursor
  | 0, _, cursor => (.done (some cursor.place), none)
  | fuel + 1, depth, cursor =>
      match cursor.left with
      | [] =>
          let malformed := cursor.faultHere .endInList
          (.broken (some cursor.place) (.fault malformed) malformed malformed, none)
      | ']' :: _ => (.done (some cursor.next.place), some cursor.next)
      | _ => itemAt fuel depth cursor

/-- An item that starts at the cursor, and those after it. -/
def itemAt : Nat → Nat → Cursor → Items × Option Cursor
  | 0, _, cursor => (.done (some cursor.place), none)
  | fuel + 1, depth, cursor =>
      let surplus := surplusAhead cursor .trailingCharacters
      match nodeAt fuel depth cursor with
      | (node, none) => (.item (some cursor.place) surplus node (.done none), none)
      | (node, some after) =>
          let (rest, after) := laterItems fuel depth after.skipBlanks
          (.item (some cursor.place) surplus node rest, after)

/-- What follows an item. -/
def laterItems : Nat → Nat → Cursor → Items × Option Cursor
  | 0, _, cursor => (.done (some cursor.place), none)
  | fuel + 1, depth, cursor =>
      match cursor.left with
      | [] =>
          let malformed := cursor.faultHere .endInList
          (.broken (some cursor.place) (.fault malformed) malformed malformed, none)
      | ']' :: _ => (.done (some cursor.next.place), some cursor.next)
      | ',' :: _ =>
          let following := cursor.next.skipBlanks
          match following.left with
          | [] =>
              let malformed := following.faultHere .endInValue
              (.broken (some following.place) (surplusAhead following .trailingCharacters)
                malformed malformed, none)
          | ']' :: _ =>
              (.broken (some following.place) (surplusAhead following .trailingComma)
                (following.faultAhead .trailingComma) (following.faultAhead .expectedValue), none)
          | _ => itemAt fuel depth following
      | _ =>
          let malformed := cursor.faultAhead .expectedListEnd
          (.broken (some cursor.place) (surplusAhead cursor .trailingCharacters)
            malformed malformed, none)

/-- The entries after the opening bracket. -/
def firstEntry : Nat → Nat → Cursor → Entries × Option Cursor
  | 0, _, cursor => (.done (some cursor.place), none)
  | fuel + 1, depth, cursor =>
      match cursor.left with
      | [] =>
          let malformed := cursor.faultHere .endInObject
          (.broken (some cursor.place) malformed malformed, none)
      | '\x7d' :: _ => (.done (some cursor.next.place), some cursor.next)
      | '"' :: _ => entryAt fuel depth (some cursor.place) cursor
      | _ =>
          let malformed := cursor.faultAhead .keyNotString
          (.broken (some cursor.place) malformed malformed, none)

/-- An entry whose key starts at the cursor, and those after it. An error without a place
gets the mark before the key, and the one behind the blanks after it. -/
def entryAt : Nat → Nat → Option Position → Cursor → Entries × Option Cursor
  | 0, _, mark, _ => (.done mark, none)
  | fuel + 1, depth, mark, cursor =>
      let scanned := StringLiteral.scan cursor.next
      match scanned.skip with
      | .error skip =>
          let read := match scanned.read with
            | .ok _ => skip
            | .error read => read
          (.broken mark read skip, none)
      | .ok after =>
          let colon := after.skipBlanks
          match colon.left with
          | ':' :: _ =>
              let keyMark := some colon.place
              match nodeAt fuel depth colon.next.skipBlanks with
              | (node, none) => (.entry mark scanned.read keyMark node (.done none), none)
              | (node, some after) =>
                  let (rest, after) := laterEntries fuel depth after.skipBlanks
                  (.entry mark scanned.read keyMark node rest, after)
          | [] =>
              (.noColon mark scanned.read (some colon.place) (colon.faultHere .endInObject), none)
          | '\x7d' :: _ =>
              (.noColon mark scanned.read (some colon.next.place)
                (colon.faultAhead .expectedColon), none)
          | _ =>
              (.noColon mark scanned.read (some colon.place)
                (colon.faultAhead .expectedColon), none)

/-- What follows an entry. -/
def laterEntries : Nat → Nat → Cursor → Entries × Option Cursor
  | 0, _, cursor => (.done (some cursor.place), none)
  | fuel + 1, depth, cursor =>
      let mark := some cursor.place
      match cursor.left with
      | [] =>
          let malformed := cursor.faultHere .endInObject
          (.broken mark malformed malformed, none)
      | '\x7d' :: _ => (.done (some cursor.next.place), some cursor.next)
      | ',' :: _ =>
          let following := cursor.next.skipBlanks
          match following.left with
          | [] =>
              (.broken mark (following.faultHere .endInValue) (following.faultHere .endInObject), none)
          | '"' :: _ => entryAt fuel depth mark following
          | '\x7d' :: _ =>
              (.broken mark (following.faultAhead .trailingComma)
                (following.faultAhead .keyNotString), none)
          | _ =>
              let malformed := following.faultAhead .keyNotString
              (.broken mark malformed malformed, none)
      | _ =>
          let malformed := cursor.faultAhead .expectedObjectEnd
          (.broken mark malformed malformed, none)

end

end SdkClients.Json.Reader

namespace SdkClients.Json

/-- The first value of a text, and what follows it unless the text is broken. -/
def readDocument (text : String) : Node × Option Cursor :=
  let cursor := (Cursor.ofText text).skipBlanks
  Reader.nodeAt (3 * cursor.left.length + 3) 0 cursor

/-- The first value of a text as a tree; what follows it is not looked at. -/
def Node.ofText (text : String) : Node := (readDocument text).1

/-- The value of a complete text, with distinct keys in every object. -/
def Value.parse (text : String) : Except Malformed Value :=
  let (node, after) := readDocument text
  match node.value, after.map Cursor.skipBlanks with
  | .error unreadable, _ => .error unreadable.malformed
  | .ok value, none => .ok value.collapse
  | .ok value, some cursor =>
      if cursor.left.isEmpty then .ok value.collapse
      else .error (cursor.faultAhead .trailingCharacters)

end SdkClients.Json
