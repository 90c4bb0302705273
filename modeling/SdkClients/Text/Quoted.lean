import SdkClients.Text.Hidden

set_option autoImplicit false

/-!
Quoted text for messages.

`quote` writes a string between double quotes so that every character can be seen: the
quote and the backslash are escaped, five control characters have short escapes, and a
hidden character is written as its number.
-/

namespace SdkClients.Text

/-- One character inside quotes. -/
def quoteCharacter (character : Char) : List Char :=
  match character with
  | '\x00' => ['\\', '0']
  | '\t' => ['\\', 't']
  | '\r' => ['\\', 'r']
  | '\n' => ['\\', 'n']
  | '"' => ['\\', '"']
  | '\\' => ['\\', '\\']
  | _ =>
      if isHidden character then
        ['\\', 'u', '\x7b'] ++ Nat.toDigits 16 character.toNat ++ ['\x7d']
      else [character]

/-- The text between double quotes. -/
def quote (text : String) : String :=
  String.ofList ('"' :: text.toList.flatMap quoteCharacter ++ ['"'])

end SdkClients.Text
