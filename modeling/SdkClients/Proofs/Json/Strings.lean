import SdkClients.Json.Printer
import SdkClients.Json.StringLiteral
import SdkClients.Proofs.Fallible
import SdkClients.Proofs.Json.Numerals

set_option autoImplicit false

/-!
Printed strings are read back.

Every character is printed as itself or as one escape, and reading takes the printed form of one
character in each of its steps.
-/

namespace SdkClients.Json

namespace StringLiteral

private theorem hexDigit_digitChar (digit : Nat) (small : digit < 16) :
    hexDigit (Nat.digitChar digit) = some digit := by
  have each : ∀ digit < 16, hexDigit (Nat.digitChar digit) = some digit := by decide
  exact each digit small

private theorem hexQuad_digitChars (unit : Nat) (small : unit < 256) :
    hexQuad '0' '0' (Nat.digitChar (unit / 16)) (Nat.digitChar (unit % 16)) = some unit := by
  have zero : hexDigit '0' = some 0 := by decide
  have high := hexDigit_digitChar (unit / 16) (by omega)
  have low := hexDigit_digitChar (unit % 16) (by omega)
  have whole : ((0 * 16 + 0) * 16 + unit / 16) * 16 + unit % 16 = unit := by omega
  simp only [hexQuad, zero, high, low, Option.bind_eq_bind, Option.bind_some, whole]
  rfl

private theorem characterOfUnit_control {character : Char} (control : character.toNat < 0x20)
    (after : Cursor) : characterOfUnit character.toNat after = .ok (character, after) := by
  have notTrailing : isTrailing character.toNat = false := by
    simp only [isTrailing, Bool.and_eq_false_iff, decide_eq_false_iff_not]
    omega
  have notLeading : isLeading character.toNat = false := by
    simp only [isLeading, Bool.and_eq_false_iff, decide_eq_false_iff_not]
    omega
  rw [characterOfUnit, notTrailing, notLeading, Char.ofNat_toNat]
  rfl

private theorem readFrom_control {character : Char} (control : character.toNat < 0x20) (fuel : Nat)
    (collected left : List Char) (place : Position) :
    readFrom (fuel + 1) collected
      ⟨'\\' :: 'u' :: '0' :: '0' :: Nat.digitChar (character.toNat / 16) ::
        Nat.digitChar (character.toNat % 16) :: left, place⟩ =
      readFrom fuel (character :: collected)
        ⟨left, place.afterAll ['\\', 'u', '0', '0', Nat.digitChar (character.toNat / 16),
          Nat.digitChar (character.toNat % 16)]⟩ := by
  have quad := hexQuad_digitChars character.toNat (by omega)
  simp only [readFrom, Cursor.next_cons, codeUnit, quad, ok_bind, characterOfUnit_control control]
  rfl

theorem readFrom_plain {character : Char} (unquoted : character ≠ '"') (unescaped : character ≠ '\\')
    (printed : ¬ character.toNat < 0x20) (fuel : Nat) (collected left : List Char)
    (place : Position) :
    readFrom (fuel + 1) collected ⟨character :: left, place⟩ =
      readFrom fuel (character :: collected) ⟨left, place.after character⟩ := by
  rw [readFrom.eq_def]
  simp only
  split
  · next empty => cases empty
  · next quote =>
      cases quote
      exact absurd rfl unquoted
  · next escape =>
      cases escape
      exact absurd rfl unescaped
  · next escape =>
      cases escape
      exact absurd rfl unescaped
  · next escape =>
      cases escape
      exact absurd rfl unescaped
  · next same =>
      cases same
      rw [if_neg printed]
      rfl

private theorem readFrom_escapeCharacter (character : Char) (fuel : Nat)
    (collected left : List Char)
    (place : Position) :
    readFrom (fuel + 1) collected ⟨escapeCharacter character ++ left, place⟩ =
      readFrom fuel (character :: collected)
        ⟨left, place.afterAll (escapeCharacter character)⟩ := by
  unfold escapeCharacter
  split
  · rfl
  · rfl
  · rfl
  · rfl
  · rfl
  · rfl
  · rfl
  · next unquoted unescaped _ _ _ _ _ =>
      by_cases control : character.toNat < 0x20
      · rw [if_pos control]
        exact readFrom_control control fuel collected left place
      · rw [if_neg control]
        exact readFrom_plain unquoted unescaped control fuel collected left place

private theorem readFrom_escaped (characters : List Char) (fuel : Nat) (collected rest : List Char)
    (place : Position) (enough : characters.length < fuel) :
    readFrom fuel collected ⟨characters.flatMap escapeCharacter ++ '"' :: rest, place⟩ =
      .ok (String.ofList (collected.reverse ++ characters),
        ⟨rest, place.afterAll (characters.flatMap escapeCharacter ++ ['"'])⟩) := by
  induction characters generalizing fuel collected place with
  | nil =>
      cases fuel with
      | zero => cases enough
      | succ fuel => simp [readFrom]
  | cons character characters ih =>
      cases fuel with
      | zero => cases enough
      | succ fuel =>
          rw [List.flatMap_cons, List.append_assoc, readFrom_escapeCharacter,
            ih fuel _ _ (Nat.lt_of_succ_lt_succ enough)]
          simp only [List.reverse_cons, List.append_assoc, List.singleton_append,
            Position.afterAll_append]

private theorem length_le_escaped (characters : List Char) :
    characters.length ≤ (characters.flatMap escapeCharacter).length := by
  induction characters with
  | nil => exact Nat.le_refl 0
  | cons character characters ih =>
      have printed : 0 < (escapeCharacter character).length := by
        unfold escapeCharacter
        split
        · exact Nat.zero_lt_succ _
        · exact Nat.zero_lt_succ _
        · exact Nat.zero_lt_succ _
        · exact Nat.zero_lt_succ _
        · exact Nat.zero_lt_succ _
        · exact Nat.zero_lt_succ _
        · exact Nat.zero_lt_succ _
        · split
          · exact Nat.zero_lt_succ _
          · exact Nat.zero_lt_succ _
      rw [List.flatMap_cons, List.length_append, List.length_cons]
      omega

/-- The text between the quotes of a printed string. -/
def body (text : String) : List Char := text.toList.flatMap escapeCharacter

theorem toList_renderString (text : String) :
    (renderString text).toList = '"' :: (body text ++ ['"']) := by
  rw [renderString, String.toList_ofList]
  rfl

theorem scan_body (text : String) (rest : List Char) (place : Position) :
    scan ⟨body text ++ '"' :: rest, place⟩ =
      ⟨.ok text, .ok ⟨rest, place.afterAll (body text ++ ['"'])⟩⟩ := by
  have enough : text.toList.length < (body text ++ '"' :: rest).length + 1 := by
    have shorter := length_le_escaped text.toList
    rw [List.length_append, body]
    omega
  have read := readFrom_escaped text.toList _ [] rest place enough
  rw [List.reverse_nil, List.nil_append, String.ofList_toList] at read
  unfold scan
  simp only
  rw [body] at read ⊢
  rw [read]

end StringLiteral

end SdkClients.Json
