import SdkClients.Decode.Container
import SdkClients.Decode.Literal
import SdkClients.Json.Reader

set_option autoImplicit false

/-!
Decoding documents.

A document is decoded from its text or from a finished value. From a text, only the first
value counts, a repeated field is a failure, and failures have places. From a value,
failures have no places.
-/

namespace SdkClients.Decode

/-- Decodes the first value of a text. -/
def fromText {α : Type} (read : Reader α) (text : String) : Except Failure α :=
  read (.ofText text)

/-- Decodes a finished value. -/
def fromValue {α : Type} (read : Reader α) (value : Json.Value) : Except Failure α :=
  read (.ofValue .fewerWanted value)

end SdkClients.Decode
