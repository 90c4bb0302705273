set_option autoImplicit false

/-!
Patterns for file names.

In a pattern a question mark stands for one character, a star for any number of them, and
brackets for one character of a set or, after an exclamation mark, outside it. Two stars
that form a whole path component stand for any number of directories.
-/

namespace SdkClients.Glob

/-- A member of a set of characters: all characters between two ends. -/
structure CharacterRange where
  first : Char
  last : Char
deriving DecidableEq, Repr

/-- A part of a pattern. -/
inductive Token where
  | character (value : Char)
  | anyCharacter
  | anySequence
  | anyDirectories
  | within (ranges : List CharacterRange)
  | except (ranges : List CharacterRange)
deriving DecidableEq, Repr

/-- What is wrong with a pattern. -/
inductive PatternFault where
  | tooManyStars
  | starsNotAlone
  | badRange
deriving DecidableEq, Repr

/-- A fault and the number of characters in front of it. -/
structure PatternError where
  position : Nat
  fault : PatternFault
deriving DecidableEq, Repr

def PatternFault.message : PatternFault → String
  | .tooManyStars => "wildcards are either regular `*` or recursive `**`"
  | .starsNotAlone => "recursive wildcards must form a single path component"
  | .badRange => "invalid range pattern"

def PatternError.message (error : PatternError) : String :=
  "Pattern syntax error near position " ++ toString error.position ++ ": " ++ error.fault.message

/-- The members of a set; a hyphen between two characters makes a range. -/
def ranges : List Char → List CharacterRange
  | first :: '-' :: last :: others => ⟨first, last⟩ :: ranges others
  | single :: others => ⟨single, single⟩ :: ranges others
  | [] => []

/-- The characters of a set up to its closing bracket, and what follows. The first one
belongs to the set even if it is a closing bracket. -/
def splitSet : List Char → Option (List Char × List Char)
  | [] => none
  | first :: others =>
      if others.contains ']' then
        some (first :: others.takeWhile (· != ']'), (others.dropWhile (· != ']')).drop 1)
      else none

/-- Parses a pattern from a position on; the characters in front are given in reverse. -/
def parseFrom : Nat → List Char → List Char → Except PatternError (List Token)
  | _, _, [] => .ok []
  | 0, _, _ :: _ => .ok []
  | fuel + 1, before, '?' :: others => do
      let tokens ← parseFrom fuel ('?' :: before) others
      return .anyCharacter :: tokens
  | fuel + 1, before, '*' :: others =>
      let stars := others.takeWhile (· == '*')
      let others := others.dropWhile (· == '*')
      match stars.length with
      | 0 => do
          let tokens ← parseFrom fuel ('*' :: before) others
          return .anySequence :: tokens
      | 1 =>
          if before.isEmpty ∨ before.head? = some '/' then
            match others with
            | [] => .ok [.anyDirectories]
            | '/' :: others => do
                let tokens ← parseFrom fuel ('/' :: '*' :: '*' :: before) others
                return .anyDirectories :: tokens
            | _ => .error ⟨before.length + 2, .starsNotAlone⟩
          else .error ⟨before.length - 1, .starsNotAlone⟩
      | _ => .error ⟨before.length + 2, .tooManyStars⟩
  | fuel + 1, before, '[' :: others =>
      let (outside, members) := match others with
        | '!' :: rest => (true, rest)
        | _ => (false, others)
      match splitSet members with
      | none => .error ⟨before.length, .badRange⟩
      | some (members, rest) => do
          let sign := if outside then ['!', '['] else ['[']
          let tokens ← parseFrom fuel (']' :: members.reverse ++ sign ++ before) rest
          let token := if outside then Token.except (ranges members) else .within (ranges members)
          return token :: tokens
  | fuel + 1, before, other :: others => do
      let tokens ← parseFrom fuel (other :: before) others
      return .character other :: tokens

/-- The tokens of a pattern. -/
def parse (pattern : String) : Except PatternError (List Token) :=
  parseFrom pattern.length [] pattern.toList

/-- The name that a pattern without special characters stands for. -/
def literal? : List Token → Option (List Char)
  | [] => some []
  | .character value :: others => (literal? others).map (value :: ·)
  | _ => none

/-- Whether a pattern is two stars. -/
def isRecursive (tokens : List Token) : Bool := tokens == [.anyDirectories]

def contains (ranges : List CharacterRange) (character : Char) : Bool :=
  ranges.any fun range => range.first ≤ character && character ≤ range.last

/-- Tries a pattern after a star on a name and on all its ends. -/
def onEnds (fits : List Char → Bool) : List Char → Bool
  | [] => fits []
  | character :: others => fits (character :: others) || onEnds fits others

/-- Whether a pattern fits a whole name. -/
def fits : List Token → List Char → Bool
  | [], name => name.isEmpty
  | .anySequence :: tokens, name => onEnds (fits tokens) name
  | .anyDirectories :: tokens, name => onEnds (fits tokens) name
  | _ :: _, [] => false
  | .character value :: tokens, character :: name => value == character && fits tokens name
  | .anyCharacter :: tokens, _ :: name => fits tokens name
  | .within ranges :: tokens, character :: name => contains ranges character && fits tokens name
  | .except ranges :: tokens, character :: name =>
      !contains ranges character && fits tokens name

end SdkClients.Glob
