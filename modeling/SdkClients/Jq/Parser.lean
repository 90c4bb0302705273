import SdkClients.Jq.Filter
import SdkClients.Jq.Token

set_option autoImplicit false

/-!
Parsing filters.

Only filters of the known forms are parsed; a text that needs another form of the language
is taken for no filter. From the loosest to the tightest, the levels are: the pipe and the
binding of a variable, the comma, the alternative, comparisons, sums, and operands with
their path steps. A pipe and a binding take all that follows as their right side; the other
operators group from the left. Each function parses one level from the front of a token
list and gives back the rest. Fewer than twelve calls follow one another before a token is
used up, which bounds the fuel.
-/

namespace SdkClients.Jq.Parser

/-- The words that start a form of their own; any other word is the name of a filter, also
where it is part of such a form. -/
def startingWords : List String :=
  ["if", "reduce", "foreach", "def", "try", "label", "break"]

/-- The words that start a declaration in front of the whole filter. -/
def declaringWords : List String := ["module", "import", "include"]

/-- A filter parsed from the front, and the tokens after it. -/
abbrev Result := Option (Filter × List Token)

/-- Goes over one expected symbol. -/
def symbol (text : String) : List Token → Option (List Token)
  | .symbol found :: rest => if found = text then some rest else none
  | _ => none

/-- Goes over one expected word. -/
def word (name : String) : List Token → Option (List Token)
  | .word found :: rest => if found = name then some rest else none
  | _ => none

/-- Whether there are lenient marks, and what follows them. -/
def marks : List Token → Bool × List Token
  | .symbol "?" :: rest => (true, (marks rest).2)
  | tokens => (false, tokens)

/-- The entry of the input under a name. -/
def ofInput (name : String) : Filter := .path .identity [(.index (.string name), false)]

mutual

/-- A pipe; without commas inside the value of an object entry. -/
def pipe : Nat → Bool → List Token → Result
  | 0, _, _ => none
  | fuel + 1, commas, tokens => do
      let (left, rest) ← commaList fuel commas tokens
      match rest with
      | .symbol "|" :: rest =>
          let (right, rest) ← pipe fuel commas rest
          return (.pipe left right, rest)
      | .word "as" :: .variable name :: .symbol "|" :: rest =>
          let (body, rest) ← pipe fuel commas rest
          return (.bind left name body, rest)
      | _ => return (left, rest)

/-- Filters separated by commas, if these are allowed. -/
def commaList : Nat → Bool → List Token → Result
  | 0, _, _ => none
  | fuel + 1, commas, tokens => do
      let (left, rest) ← alternative fuel tokens
      match rest with
      | .symbol "," :: following =>
          if commas then
            let (right, rest) ← commaList fuel commas following
            return (.comma left right, rest)
          else return (left, rest)
      | _ => return (left, rest)

/-- A filter with a fallback. -/
def alternative : Nat → List Token → Result
  | 0, _ => none
  | fuel + 1, tokens => do
      let (left, rest) ← sum fuel tokens
      let (left, rest) ← comparedFrom fuel left rest
      match rest with
      | .symbol "//" :: rest =>
          let (right, rest) ← alternative fuel rest
          return (.otherwise left right, rest)
      | _ => return (left, rest)

/-- The sums that are compared with the first one. -/
def comparedFrom : Nat → Filter → List Token → Result
  | 0, _, _ => none
  | fuel + 1, left, tokens =>
      match tokens with
      | .symbol "==" :: rest => do
          let (right, rest) ← sum fuel rest
          comparedFrom fuel (.join .equal left right) rest
      | .symbol "!=" :: rest => do
          let (right, rest) ← sum fuel rest
          comparedFrom fuel (.join .different left right) rest
      | _ => some (left, tokens)

/-- Operands added and subtracted. -/
def sum : Nat → List Token → Result
  | 0, _ => none
  | fuel + 1, tokens => do
      let (left, rest) ← operand fuel tokens
      summedFrom fuel left rest

/-- The operands that are added to the first one or subtracted from it. -/
def summedFrom : Nat → Filter → List Token → Result
  | 0, _, _ => none
  | fuel + 1, left, tokens =>
      match tokens with
      | .symbol "+" :: rest => do
          let (right, rest) ← operand fuel rest
          summedFrom fuel (.join .plus left right) rest
      | .symbol "-" :: rest => do
          let (right, rest) ← operand fuel rest
          summedFrom fuel (.join .minus left right) rest
      | _ => some (left, tokens)

/-- An atom with its path steps. -/
def operand : Nat → List Token → Result
  | 0, _ => none
  | fuel + 1, tokens => do
      let (start, rest) ← atom fuel tokens
      let (lenient, rest) := marks rest
      let start := if lenient then .attempt start else start
      let (steps, rest) ← stepList fuel rest
      return (if steps.isEmpty then start else .path start steps, rest)

/-- The path steps in front. -/
def stepList : Nat → List Token → Option (List (Step Filter × Bool) × List Token)
  | 0, _ => none
  | fuel + 1, tokens =>
      match tokens with
      | .field name :: rest => stepsFrom fuel (.index (.string name)) rest
      | .symbol "." :: .text name :: rest => stepsFrom fuel (.index (.string name)) rest
      | .symbol "[" :: rest => do
          let (step, rest) ← bracket fuel rest
          stepsFrom fuel step rest
      | _ => some ([], tokens)

/-- A step with the lenient marks after it, and the steps that follow. -/
def stepsFrom : Nat → Step Filter → List Token → Option (List (Step Filter × Bool) × List Token)
  | 0, _, _ => none
  | fuel + 1, step, tokens => do
      let (lenient, rest) := marks tokens
      let (steps, rest) ← stepList fuel rest
      return ((step, lenient) :: steps, rest)

/-- A path step in brackets, after the opening one. -/
def bracket : Nat → List Token → Option (Step Filter × List Token)
  | 0, _ => none
  | fuel + 1, tokens =>
      match tokens with
      | .symbol "]" :: rest => some (.iterate, rest)
      | .symbol ":" :: rest => do
          let (past, rest) ← pipe fuel true rest
          let rest ← symbol "]" rest
          return (.slice none (some past), rest)
      | _ => do
          let (key, rest) ← pipe fuel true tokens
          match rest with
          | .symbol "]" :: rest => return (.index key, rest)
          | .symbol ":" :: .symbol "]" :: rest => return (.slice (some key) none, rest)
          | .symbol ":" :: rest =>
              let (past, rest) ← pipe fuel true rest
              let rest ← symbol "]" rest
              return (.slice (some key) (some past), rest)
          | _ => none

/-- A filter without operators and path steps around it. In front of a field nothing is
taken, since the field is a step from the input. -/
def atom : Nat → List Token → Result
  | 0, _ => none
  | fuel + 1, tokens =>
      match tokens with
      | .numeral text :: rest => some (.number (.ofNumeral text), rest)
      | .text content :: rest => some (.string content, rest)
      | .variable name :: rest => some (.variable name, rest)
      | .field _ :: _ => some (.identity, tokens)
      | .symbol "." :: .text _ :: _ => some (.identity, tokens)
      | .symbol "." :: rest => some (.identity, rest)
      | .symbol ".." :: rest => some (.recurse, rest)
      | .symbol "(" :: rest => do
          let (body, rest) ← pipe fuel true rest
          let rest ← symbol ")" rest
          return (body, rest)
      | .symbol "[" :: .symbol "]" :: rest => some (.emptyArray, rest)
      | .symbol "[" :: rest => do
          let (body, rest) ← pipe fuel true rest
          let rest ← symbol "]" rest
          return (.collect body, rest)
      | .symbol "\x7b" :: .symbol "\x7d" :: rest => some (.construct [], rest)
      | .symbol "\x7b" :: rest => do
          let (entries, rest) ← entryList fuel rest
          return (.construct entries, rest)
      | .symbol "-" :: rest => do
          let (body, rest) ← operand fuel rest
          return (.negate body, rest)
      | .word "if" :: rest => condition fuel rest
      | .word "reduce" :: rest => do
          let (source, rest) ← operand fuel rest
          let rest ← word "as" rest
          match rest with
          | .variable name :: rest =>
              let (arguments, rest) ← callArguments fuel rest
              return (.reduce source name arguments, rest)
          | _ => none
      | .word name :: rest => do
          if startingWords.contains name then none
          let (arguments, rest) ← callArguments fuel rest
          return (.call name arguments, rest)
      | _ => none

/-- The arguments of a call, if there is an opening bracket. -/
def callArguments : Nat → List Token → Option (List Filter × List Token)
  | 0, _ => none
  | fuel + 1, tokens =>
      match tokens with
      | .symbol "(" :: rest => argumentList fuel rest
      | _ => some ([], tokens)

/-- The arguments of a call up to the closing bracket. -/
def argumentList : Nat → List Token → Option (List Filter × List Token)
  | 0, _ => none
  | fuel + 1, tokens => do
      let (argument, rest) ← pipe fuel true tokens
      match rest with
      | .symbol ")" :: rest => return ([argument], rest)
      | .symbol ";" :: rest =>
          let (others, rest) ← argumentList fuel rest
          return (argument :: others, rest)
      | _ => none

/-- The entries of an object up to the closing bracket, which may follow a comma. -/
def entryList : Nat → List Token → Option (List (Filter × Filter) × List Token)
  | 0, _ => none
  | fuel + 1, tokens => do
      let (entry, rest) ← entry fuel tokens
      match rest with
      | .symbol "\x7d" :: rest => return ([entry], rest)
      | .symbol "," :: .symbol "\x7d" :: rest => return ([entry], rest)
      | .symbol "," :: rest =>
          let (others, rest) ← entryList fuel rest
          return (entry :: others, rest)
      | _ => none

/-- One entry of an object. A key alone takes its value from the input; a variable alone is
the value, and its name is the key. -/
def entry : Nat → List Token → Option ((Filter × Filter) × List Token)
  | 0, _ => none
  | fuel + 1, tokens =>
      match tokens with
      | .word name :: rest => entryValue fuel (.string name) (.string name) (ofInput name) rest
      | .text name :: rest => entryValue fuel (.string name) (.string name) (ofInput name) rest
      | .variable name :: rest =>
          entryValue fuel (.variable name) (.string name) (.variable name) rest
      | .symbol "(" :: rest => do
          let (key, rest) ← pipe fuel true rest
          let rest ← symbol ")" rest
          let rest ← symbol ":" rest
          let (value, rest) ← pipe fuel false rest
          return ((key, value), rest)
      | _ => none

/-- The value of an entry after a colon; without one the entry has another key and value. -/
def entryValue : Nat → Filter → Filter → Filter → List Token →
    Option ((Filter × Filter) × List Token)
  | 0, _, _, _, _ => none
  | fuel + 1, key, keyAlone, valueAlone, tokens =>
      match tokens with
      | .symbol ":" :: rest => do
          let (value, rest) ← pipe fuel false rest
          return ((key, value), rest)
      | _ => some ((keyAlone, valueAlone), tokens)

/-- A condition after its first word; without a last branch the input is passed on. -/
def condition : Nat → List Token → Result
  | 0, _ => none
  | fuel + 1, tokens => do
      let (test, rest) ← pipe fuel true tokens
      let rest ← word "then" rest
      let (yes, rest) ← pipe fuel true rest
      match rest with
      | .word "end" :: rest => return (.branch test yes .identity, rest)
      | .word "else" :: rest =>
          let (no, rest) ← pipe fuel true rest
          let rest ← word "end" rest
          return (.branch test yes no, rest)
      | .word "elif" :: rest =>
          let (no, rest) ← condition fuel rest
          return (.branch test yes no, rest)
      | _ => none

end

/-- Whether the tokens start with a declaration. -/
def declares : List Token → Bool
  | .word name :: _ => declaringWords.contains name
  | _ => false

end SdkClients.Jq.Parser

namespace SdkClients.Jq

/-- The filter that a text stands for; nothing when the text is no filter of the known forms. -/
def Filter.parse (source : String) : Option Filter := do
  let tokens ← Token.split source
  if Parser.declares tokens then none
  let (filter, rest) ← Parser.pipe (14 * (tokens.length + 1)) true tokens
  if rest.isEmpty then some filter else none

end SdkClients.Jq
