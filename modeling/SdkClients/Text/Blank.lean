set_option autoImplicit false

/-!
Blank characters in the wide sense, used to recognise lines without content.

The set is the Unicode white space: the ASCII blanks, the no-break and ogham spaces, the
typographic spaces, and the line and paragraph separators. It is wider than the four
characters that separate the tokens of a document.
-/

namespace SdkClients.Text

/-- Whether a character is white space. -/
def isBlank (character : Char) : Bool :=
  let code := character.toNat
  (0x09 ≤ code && code ≤ 0x0D) || code == 0x20 || code == 0x85 || code == 0xA0 ||
    code == 0x1680 || (0x2000 ≤ code && code ≤ 0x200A) || code == 0x2028 || code == 0x2029 ||
    code == 0x202F || code == 0x205F || code == 0x3000

/-- Whether every character is white space. -/
def isBlankLine (line : List Char) : Bool := line.all isBlank

end SdkClients.Text
