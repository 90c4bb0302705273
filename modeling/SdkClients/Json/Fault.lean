set_option autoImplicit false

/-!
Faults of document text and the places where they are reported.

A place counts lines from one and the bytes already read on the line. A fault is the kind
of problem; `Malformed` joins it to a place and `Malformed.message` is what is reported.
-/

namespace SdkClients.Json

/-- A place in a text: the line, and how many bytes of it were read. -/
structure Position where
  line : Nat
  column : Nat
deriving DecidableEq, Repr, Inhabited

namespace Position

/-- The place before the first character. -/
def start : Position := ⟨1, 0⟩

/-- The place after a whole character. -/
def after (place : Position) (character : Char) : Position :=
  if character = '\n' then ⟨place.line + 1, 0⟩
  else ⟨place.line, place.column + character.utf8Size⟩

/-- The place after the first byte of a character. -/
def afterByte (place : Position) (character : Char) : Position :=
  if character = '\n' then ⟨place.line + 1, 0⟩ else ⟨place.line, place.column + 1⟩

/-- The place after a whole text. -/
def afterAll (place : Position) (characters : List Char) : Position :=
  characters.foldl after place

/-- The place after a number of bytes, which may end inside a character. -/
def afterBytes : Position → Nat → List Char → Position
  | place, _, [] => place
  | place, count, character :: others =>
      if count = 0 then place
      else if count < character.utf8Size then ⟨place.line, place.column + count⟩
      else afterBytes (place.after character) (count - character.utf8Size) others

/-- The place just after the byte that is looked at; at the end of the text, its end. -/
def ahead (place : Position) : List Char → Position
  | [] => place
  | character :: _ => place.afterByte character

/-- How a place is named in a message. -/
def describe (place : Position) : String :=
  "line " ++ toString place.line ++ " column " ++ toString place.column

end Position

/-- What can be wrong with the text of a document. -/
inductive Fault where
  | endInList
  | endInObject
  | endInString
  | endInValue
  | expectedColon
  | expectedListEnd
  | expectedObjectEnd
  | expectedWord
  | expectedValue
  | invalidEscape
  | invalidNumber
  | numberOutOfRange
  | loneSurrogate
  | unfinishedSurrogate
  | controlCharacter
  | keyNotString
  | trailingComma
  | trailingCharacters
  | tooDeep
deriving DecidableEq, Repr

/-- The wording of a fault. -/
def Fault.message : Fault → String
  | .endInList => "EOF while parsing a list"
  | .endInObject => "EOF while parsing an object"
  | .endInString => "EOF while parsing a string"
  | .endInValue => "EOF while parsing a value"
  | .expectedColon => "expected `:`"
  | .expectedListEnd => "expected `,` or `]`"
  | .expectedObjectEnd => "expected `,` or `\x7d`"
  | .expectedWord => "expected ident"
  | .expectedValue => "expected value"
  | .invalidEscape => "invalid escape"
  | .invalidNumber => "invalid number"
  | .numberOutOfRange => "number out of range"
  | .loneSurrogate => "lone leading surrogate in hex escape"
  | .unfinishedSurrogate => "unexpected end of hex escape"
  | .controlCharacter => "control character (\\u0000-\\u001F) found while parsing a string"
  | .keyNotString => "key must be a string"
  | .trailingComma => "trailing comma"
  | .trailingCharacters => "trailing characters"
  | .tooDeep => "recursion limit exceeded"

/-- A fault at a place. -/
structure Malformed where
  fault : Fault
  place : Position
deriving DecidableEq, Repr

/-- The full wording of a fault and its place. -/
def Malformed.message (malformed : Malformed) : String :=
  malformed.fault.message ++ " at " ++ malformed.place.describe

end SdkClients.Json
