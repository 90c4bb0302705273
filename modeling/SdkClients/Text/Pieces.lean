set_option autoImplicit false

/-!
Cutting texts at a separating character.

A text has one more piece than separators. Pieces may be empty, and putting the separator
between them gives the text again.
-/

namespace SdkClients.Text

/-- The pieces between the separators. -/
def pieces (separator : Char) : List Char → List (List Char)
  | [] => [[]]
  | character :: others =>
      if character = separator then [] :: pieces separator others
      else
        match pieces separator others with
        | [] => [[character]]
        | piece :: later => (character :: piece) :: later

/-- The pieces of a string. -/
def split (separator : Char) (text : String) : List String :=
  (pieces separator text.toList).map String.ofList

/-- Whether a string starts with a character. -/
def startsWith (text : String) (character : Char) : Bool :=
  text.toList.head? == some character

/-- Whether a string ends with a character. -/
def endsWith (text : String) (character : Char) : Bool :=
  text.toList.getLast? == some character

end SdkClients.Text
