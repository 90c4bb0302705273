import SdkClients.Json.Cursor

set_option autoImplicit false

/-!
String literals.

A literal is a sequence of pieces up to the closing quote: plain characters, one-letter
escapes, and escaped code units of four hexadecimal digits. Code units above the basic
plane come in pairs, a leading one and a trailing one. Reading insists on complete pairs;
skipping looks at single pieces only.
-/

namespace SdkClients.Json.StringLiteral

/-- The character that a one-letter escape stands for. -/
def shortEscape : Char → Option Char
  | '"' => some '"'
  | '\\' => some '\\'
  | '/' => some '/'
  | 'b' => some '\x08'
  | 'f' => some '\x0c'
  | 'n' => some '\n'
  | 'r' => some '\r'
  | 't' => some '\t'
  | _ => none

/-- The value of a hexadecimal digit. -/
def hexDigit (character : Char) : Option Nat :=
  if character.isDigit then some (character.toNat - '0'.toNat)
  else if 'a' ≤ character ∧ character ≤ 'f' then some (character.toNat - 'a'.toNat + 10)
  else if 'A' ≤ character ∧ character ≤ 'F' then some (character.toNat - 'A'.toNat + 10)
  else none

/-- The value of four hexadecimal digits. -/
def hexQuad (first second third fourth : Char) : Option Nat := do
  let first ← hexDigit first
  let second ← hexDigit second
  let third ← hexDigit third
  let fourth ← hexDigit fourth
  return ((first * 16 + second) * 16 + third) * 16 + fourth

/-- A fault inside the four bytes of a code unit: they are refused as a whole, and if the
text has fewer bytes left, it ends inside the string. -/
def badUnit (cursor : Cursor) : Malformed :=
  if 4 ≤ ((cursor.left.take 4).map Char.utf8Size).foldl (· + ·) 0 then
    ⟨.invalidEscape, cursor.place.afterBytes 4 cursor.left⟩
  else cursor.faultAtEnd .endInString

/-- The code unit after `\u`. -/
def codeUnit (cursor : Cursor) : Except Malformed (Nat × Cursor) :=
  match cursor.left with
  | first :: second :: third :: fourth :: _ =>
      match hexQuad first second third fourth with
      | some unit => .ok (unit, cursor.next.next.next.next)
      | none => .error (badUnit cursor)
  | _ => .error (badUnit cursor)

def isLeading (unit : Nat) : Bool := 0xD800 ≤ unit && unit ≤ 0xDBFF

def isTrailing (unit : Nat) : Bool := 0xDC00 ≤ unit && unit ≤ 0xDFFF

/-- The character of a complete pair. -/
def joinPair (leading trailing : Nat) : Char :=
  Char.ofNat (0x10000 + (leading - 0xD800) * 0x400 + (trailing - 0xDC00))

/-- The escaped code unit that has to follow a leading one. -/
def trailingUnit (cursor : Cursor) : Except Malformed (Nat × Cursor) :=
  match cursor.left with
  | [] => .error (cursor.faultHere .endInString)
  | '\\' :: [] => .error (cursor.next.faultHere .endInString)
  | '\\' :: 'u' :: _ => do
      let (unit, after) ← codeUnit cursor.next.next
      if isTrailing unit then return (unit, after)
      else throw (after.faultHere .loneSurrogate)
  | '\\' :: _ => .error (cursor.next.faultAhead .unfinishedSurrogate)
  | _ => .error (cursor.faultAhead .unfinishedSurrogate)

/-- The character that starts with a given code unit. -/
def characterOfUnit (unit : Nat) (after : Cursor) : Except Malformed (Char × Cursor) :=
  if isTrailing unit then .error (after.faultHere .loneSurrogate)
  else if isLeading unit then do
    let (trailing, after) ← trailingUnit after
    return (joinPair unit trailing, after)
  else .ok (Char.ofNat unit, after)

/-- Reads up to the closing quote; each step takes a character, so the number of characters
is fuel enough. -/
def readFrom : Nat → List Char → Cursor → Except Malformed (String × Cursor)
  | 0, _, cursor => .error (cursor.faultHere .endInString)
  | fuel + 1, collected, cursor =>
      match cursor.left with
      | [] => .error (cursor.faultHere .endInString)
      | '"' :: _ => .ok (String.ofList collected.reverse, cursor.next)
      | '\\' :: [] => .error (cursor.next.faultHere .endInString)
      | '\\' :: 'u' :: _ => do
          let (unit, after) ← codeUnit cursor.next.next
          let (character, after) ← characterOfUnit unit after
          readFrom fuel (character :: collected) after
      | '\\' :: letter :: _ =>
          match shortEscape letter with
          | some character => readFrom fuel (character :: collected) cursor.next.next
          | none => .error (cursor.next.faultAhead .invalidEscape)
      | character :: _ =>
          if character.toNat < 0x20 then .error (cursor.faultAhead .controlCharacter)
          else readFrom fuel (character :: collected) cursor.next

/-- Skips up to the closing quote; a control character is reported before it. -/
def skipFrom : Nat → Cursor → Except Malformed Cursor
  | 0, cursor => .error (cursor.faultHere .endInString)
  | fuel + 1, cursor =>
      match cursor.left with
      | [] => .error (cursor.faultHere .endInString)
      | '"' :: _ => .ok cursor.next
      | '\\' :: [] => .error (cursor.next.faultHere .endInString)
      | '\\' :: 'u' :: _ => do
          let (_, after) ← codeUnit cursor.next.next
          skipFrom fuel after
      | '\\' :: letter :: _ =>
          match shortEscape letter with
          | some _ => skipFrom fuel cursor.next.next
          | none => .error (cursor.next.faultAhead .invalidEscape)
      | character :: _ =>
          if character.toNat < 0x20 then .error (cursor.faultHere .controlCharacter)
          else skipFrom fuel cursor.next

/-- The literal whose opening quote was just read. -/
def scan (cursor : Cursor) : Scanned String :=
  let fuel := cursor.left.length + 1
  match readFrom fuel [] cursor with
  | .ok (text, after) => ⟨.ok text, .ok after⟩
  | .error malformed => ⟨.error malformed, skipFrom fuel cursor⟩

end SdkClients.Json.StringLiteral
