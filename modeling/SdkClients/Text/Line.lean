import SdkClients.Text.Pieces

set_option autoImplicit false

/-!
The lines of a text.

A line ends at a line feed; a carriage return in front of the line feed belongs to the end
of the line. What follows the last line feed is a line of its own unless it is empty, and
a carriage return at its end is kept.
-/

namespace SdkClients.Text

/-- A line without a carriage return at its end. -/
def withoutReturn (line : List Char) : List Char :=
  if line.getLast? = some '\r' then line.dropLast else line

/-- The lines that the pieces stand for: only the last piece has no line feed behind it. -/
def linesOfPieces : List (List Char) → List (List Char)
  | [] => []
  | [[]] => []
  | [last] => [last]
  | piece :: others => withoutReturn piece :: linesOfPieces others

/-- The lines of a text. -/
def lines (text : List Char) : List (List Char) := linesOfPieces (pieces '\n' text)

end SdkClients.Text
