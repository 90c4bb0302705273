import SdkClients.Json.StringLiteral
import SdkClients.Text.Blank

set_option autoImplicit false

/-!
Tokens of filters.

These are the tokens of the filters that the modules here deal with. Blanks and comments
separate tokens. A comment ends with its line, unless an odd number
of backslashes stands at the end of the line. Operators are taken as long as possible,
except that a minus starts a token of its own. A dot directly in front of a name belongs
to it.
-/

namespace SdkClients.Jq

/-- A token of a filter. -/
inductive Token where
  | word (name : String)
  | field (name : String)
  | variable (name : String)
  | numeral (text : String)
  | text (content : String)
  | symbol (text : String)
deriving DecidableEq, Repr

namespace Token

def startsName (character : Char) : Bool := character.isAlpha || character == '_'

def continuesName (character : Char) : Bool := character.isAlphanum || character == '_'

/-- The characters that make up operators. -/
def isOperator (character : Char) : Bool := "|=!<>+-*/%".toList.contains character

/-- The characters that an operator goes on with. -/
def continuesOperator (character : Char) : Bool := isOperator character && character != '-'

/-- What follows a comment; the flag tells whether an odd number of backslashes was just
passed. -/
def afterComment : Bool → List Char → List Char
  | _, [] => []
  | odd, '\\' :: others => afterComment (!odd) others
  | odd, '\r' :: '\n' :: others => if odd then afterComment false others else others
  | odd, '\n' :: others => if odd then afterComment false others else others
  | _, _ :: others => afterComment false others

/-- The name in front and what follows it. -/
def splitName (characters : List Char) : String × List Char :=
  (String.ofList (characters.takeWhile continuesName), characters.dropWhile continuesName)

/-- The digits in front, of which there has to be one, and what follows them. -/
def splitDigits (characters : List Char) : Option (List Char × List Char) :=
  let digits := characters.takeWhile Char.isDigit
  if digits.isEmpty then none else some (digits, characters.dropWhile Char.isDigit)

/-- A fraction, if there is one; its point needs digits. -/
def splitFraction : List Char → Option (List Char × List Char)
  | '.' :: others => do
      let (digits, rest) ← splitDigits others
      return ('.' :: digits, rest)
  | others => some ([], others)

/-- An exponent after its mark, which needs digits. -/
def splitExponent (mark : Char) (characters : List Char) : Option (List Char × List Char) := do
  let (sign, others) := match characters with
    | '+' :: others => (['+'], others)
    | '-' :: others => (['-'], others)
    | _ => ([], characters)
  let (digits, rest) ← splitDigits others
  return (mark :: sign ++ digits, rest)

/-- The numeral in front and what follows it. -/
def splitNumeral (characters : List Char) : Option (List Char × List Char) := do
  let (whole, others) ← splitDigits characters
  let (fraction, others) ← splitFraction others
  let (exponent, others) ← match others with
    | 'e' :: tail => splitExponent 'e' tail
    | 'E' :: tail => splitExponent 'E' tail
    | _ => some ([], others)
  return (whole ++ fraction ++ exponent, others)

/-- The content of a text after its opening quote, and what follows the closing one. An
escaped code unit is a character by itself. -/
def splitText : List Char → Option (List Char × List Char)
  | [] => none
  | '"' :: others => some ([], others)
  | '\\' :: 'u' :: first :: second :: third :: fourth :: others => do
      let unit ← Json.StringLiteral.hexQuad first second third fourth
      if unit.isValidChar then
        let (content, rest) ← splitText others
        return (Char.ofNat unit :: content, rest)
      else none
  | '\\' :: letter :: others => do
      let character ← Json.StringLiteral.shortEscape letter
      let (content, rest) ← splitText others
      return (character :: content, rest)
  | character :: others => do
      let (content, rest) ← splitText others
      return (character :: content, rest)

/-- The token in front of a list that starts with neither a blank nor a comment. -/
def first (characters : List Char) : Option (Token × List Char) :=
  match characters with
  | [] => none
  | '"' :: others =>
      (splitText others).map fun (content, rest) => (.text (String.ofList content), rest)
  | '$' :: others =>
      match others with
      | character :: _ =>
          if startsName character then
            let (name, rest) := splitName others
            some (.variable name, rest)
          else none
      | [] => none
  | '.' :: '.' :: others => some (.symbol "..", others)
  | '.' :: others =>
      match others with
      | character :: _ =>
          if startsName character then
            let (name, rest) := splitName others
            some (.field name, rest)
          else some (.symbol ".", others)
      | [] => some (.symbol ".", [])
  | character :: others =>
      if character.isDigit then
        (splitNumeral characters).map fun (digits, rest) => (.numeral (String.ofList digits), rest)
      else if startsName character then
        let (name, rest) := splitName characters
        some (.word name, rest)
      else if isOperator character then
        some (.symbol (String.ofList (character :: others.takeWhile continuesOperator)),
          others.dropWhile continuesOperator)
      else if "()[]\x7b\x7d,;:?".toList.contains character then
        some (.symbol (String.singleton character), others)
      else none

/-- All tokens; every token has at least one character, so their number is fuel enough. -/
def splitFrom : Nat → List Char → Option (List Token)
  | _, [] => some []
  | 0, _ :: _ => none
  | fuel + 1, '#' :: others => splitFrom fuel (afterComment false others)
  | fuel + 1, character :: others =>
      if Text.isBlank character then splitFrom fuel others
      else do
        let (token, rest) ← first (character :: others)
        let tokens ← splitFrom fuel rest
        return token :: tokens

/-- The tokens of a filter; nothing when a character starts no token. -/
def split (source : String) : Option (List Token) :=
  splitFrom (source.toList.length + 1) source.toList

end Token

end SdkClients.Jq
