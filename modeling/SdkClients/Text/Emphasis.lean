set_option autoImplicit false

/-!
Emphasis on terminals.

Emphasized text starts with the code of its style and ends with the reset code. A reset
code inside the text would end the emphasis early, so the style is started again after it.
-/

namespace SdkClients.Text

/-- A way to emphasize text. -/
inductive Emphasis where
  | bold
  | dimmed
deriving DecidableEq, Repr

/-- The characters that start a style. -/
def Emphasis.code : Emphasis → List Char
  | .bold => ['\x1b', '[', '1', 'm']
  | .dimmed => ['\x1b', '[', '2', 'm']

/-- The text with a code put in behind every reset code. -/
def restart (code : List Char) : List Char → List Char
  | '\x1b' :: '[' :: '0' :: 'm' :: others => ['\x1b', '[', '0', 'm'] ++ code ++ restart code others
  | character :: others => character :: restart code others
  | [] => []

/-- The text between the codes of a style. -/
def Emphasis.apply (emphasis : Emphasis) (text : String) : String :=
  String.ofList (emphasis.code ++ restart emphasis.code text.toList ++ ['\x1b', '[', '0', 'm'])

/-- Emphasis that can be switched off. -/
def emphasize (coloured : Bool) (emphasis : Emphasis) (text : String) : String :=
  if coloured then emphasis.apply text else text

/-- Whether output is emphasized, by three settings of the environment and the kind of the
output. A setting is on unless it is the digit zero. Emphasis can be forced, else it can be
refused, and else a terminal has it unless it is switched off. -/
def wantsEmphasis (forced refused general : Option String) (terminal : Bool) : Bool :=
  if forced.any (· != "0") then true
  else if refused.isSome then false
  else terminal && general.all (· != "0")

end SdkClients.Text
