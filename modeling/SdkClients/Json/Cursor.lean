import SdkClients.Json.Fault

set_option autoImplicit false

/-!
The unread part of a text together with the place where it starts.

`Scanned` is the outcome of going over one token. Reading wants the token's meaning;
skipping only wants to know where the token ends and is content with less, so the two
may differ.
-/

namespace SdkClients.Json

/-- What is left of a text, and where it stands. -/
structure Cursor where
  left : List Char
  place : Position
deriving Repr

/-- Reading gives a meaning and skipping gives what follows; either may find a fault. -/
structure Scanned (α : Type) where
  read : Except Malformed α
  skip : Except Malformed Cursor

/-- A token that reading and skipping refuse for the same reason. -/
def Scanned.refused {α : Type} (malformed : Malformed) : Scanned α :=
  ⟨.error malformed, .error malformed⟩

namespace Cursor

/-- The start of a text. -/
def ofText (text : String) : Cursor := ⟨text.toList, .start⟩

/-- A fault reported where the cursor stands. -/
def faultHere (cursor : Cursor) (fault : Fault) : Malformed := ⟨fault, cursor.place⟩

/-- A fault reported at the byte that is looked at. -/
def faultAhead (cursor : Cursor) (fault : Fault) : Malformed :=
  ⟨fault, cursor.place.ahead cursor.left⟩

/-- A fault reported at the end of the text. -/
def faultAtEnd (cursor : Cursor) (fault : Fault) : Malformed :=
  ⟨fault, cursor.place.afterAll cursor.left⟩

/-- Moves over one character, if there is one. -/
def next (cursor : Cursor) : Cursor :=
  match cursor.left with
  | [] => cursor
  | character :: others => ⟨others, cursor.place.after character⟩

/-- Moves over the blanks in front of a list of characters. -/
def skipBlanksFrom : List Char → Position → Cursor
  | [], place => ⟨[], place⟩
  | character :: others, place =>
      if character = ' ' ∨ character = '\n' ∨ character = '\t' ∨ character = '\r' then
        skipBlanksFrom others (place.after character)
      else ⟨character :: others, place⟩

/-- Moves over blanks: spaces, tabulators and line ends. -/
def skipBlanks (cursor : Cursor) : Cursor := skipBlanksFrom cursor.left cursor.place

/-- Moves over digits and collects their values. -/
def digitsFrom : List Char → Position → List Nat × Cursor
  | [], place => ([], ⟨[], place⟩)
  | character :: others, place =>
      if character.isDigit then
        let (digits, cursor) := digitsFrom others (place.after character)
        ((character.toNat - '0'.toNat) :: digits, cursor)
      else ([], ⟨character :: others, place⟩)

/-- The digits at the cursor and what follows them. -/
def digits (cursor : Cursor) : List Nat × Cursor := digitsFrom cursor.left cursor.place

/-- Goes over the given characters; the first that differs is a fault just after it. -/
def word : List Char → Cursor → Except Malformed Cursor
  | [], cursor => .ok cursor
  | wanted :: others, cursor =>
      match cursor.left with
      | [] => .error (cursor.faultHere .endInValue)
      | character :: _ =>
          if character = wanted then word others cursor.next
          else .error (cursor.faultAhead .expectedWord)

end Cursor

end SdkClients.Json
