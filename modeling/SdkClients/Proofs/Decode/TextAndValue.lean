import Mathlib
import SdkClients.Proofs.Decode.Steady
import SdkClients.Proofs.DistinctKeys

set_option autoImplicit false

/-!
Decoding a text and decoding its value.

A text that is read to its end and repeats no key differs from its value in nothing but places.
No kind of document is read with an eye to places, so both ways end with the same result or fail
at the same path. Only messages can tell them apart.
-/

namespace SdkClients.Decode

open Json (Node Entries Value)

/-! ### Kinds of documents -/

private theorem Record.Steady.container {inner : Reader ContainerDecl}
    (steady : Decode.Steady inner) :
    (containerRecord inner).Steady := by
  intro field declared draft node
  simp only [containerRecord, List.mem_cons, List.not_mem_nil, or_false] at declared
  rcases declared with rfl | rfl | rfl | rfl | rfl | rfl
  · exact (steady_readString node).map _
  · exact (steady_readBool node).map _
  · exact (steady_readBool node).map _
  · exact (steady_readString.readList node).map _
  · exact (steady.readList node).map _
  · exact (steady.readList node).map _

private theorem steady_readContainerWithin (levels : Nat) :
    Steady (readContainerWithin levels) := by
  induction levels with
  | zero => exact fun node => sameAnswer_mismatch (.record "struct ContainerDecl") node _
  | succ levels ih => exact (Record.Steady.container ih).read

private theorem steady_readContainer : Steady readContainer := by
  intro node
  rw [readContainer, readContainer, Node.height_unplaced]
  exact steady_readContainerWithin _ node

private theorem steady_readValue : Steady readValue := by
  intro node
  rw [readValue, readValue, Node.value_unplaced]
  exact .refl _

private theorem steady_readEnumValue : Steady readEnumValue :=
  fun node => (steady_readValue node).bind fun _ => .refl _

private theorem steady_readNormalized : Steady readNormalized :=
  fun node => (steady_readValue node).map _

private theorem steady_readEnumMember : Steady readEnumMember := by
  refine Record.Steady.read fun field declared draft node => ?_
  simp only [enumMemberRecord, List.mem_cons, List.not_mem_nil, or_false] at declared
  rcases declared with rfl | rfl
  · exact (steady_readString node).map _
  · exact (steady_readEnumValue.readOption node).map _

private theorem steady_readKind (numbered : Bool) : Steady (readKind numbered) := by
  intro node
  cases node with
  | string tag after =>
      rw [Node.unplaced, readKind, readKind]
      cases TypedKind.ofTag? tag with
      | none => exact .failure rfl
      | some kind => exact .value kind
  | number number after =>
      cases number with
      | real value => exact sameAnswer_mismatch .kind _ _
      | integer value =>
          rw [Node.unplaced, readKind, readKind]
          split
          · cases TypedKind.all[value.toNat]? with
            | none => exact .failure rfl
            | some kind => exact .value kind
          · exact sameAnswer_mismatch .kind _ _
  | _ => exact sameAnswer_mismatch .kind _ _

private theorem sameAnswer_collectEntries (numbered : Bool) :
    ∀ (entries : Entries) (kind : Option TypedKind),
      SameAnswer (collectEntries numbered kind entries)
        (collectEntries numbered kind entries.unplaced)
  | .done _, kind => by
      cases kind with
      | none => exact .failure rfl
      | some kind => exact .value _
  | .entry _ key keyMark node rest, kind => by
      rw [Entries.unplaced, collectEntries, collectEntries]
      refine (SameAnswer.refl (readKey key)).bind fun name => ?_
      by_cases isKind : name = "kind"
      · simp only [isKind, if_true]
        cases kind with
        | some known =>
            simp only [Option.isSome_some, if_true, throw_eq_error, error_bind]
            exact .failure rfl
        | none =>
            simp only [Option.isSome_none, Bool.false_eq_true, if_false]
            refine ((steady_readKind numbered node).under (.field "kind") rest.mark
              rest.unplaced.mark).bind fun known => ?_
            exact sameAnswer_collectEntries numbered rest (some known)
      · simp only [isKind, if_false]
        rw [readValue, readValue, Node.value_unplaced]
        refine (SameAnswer.refl _).bind fun value => ?_
        exact (sameAnswer_collectEntries numbered rest kind).bind fun _ => .refl _
  | .noColon _ key keyMark malformed, kind => by
      rw [Entries.unplaced, collectEntries, collectEntries]
      refine (SameAnswer.refl (readKey key)).bind fun name => ?_
      cases name = "kind" && kind.isSome with
      | true => exact .failure rfl
      | false => exact .refl _
  | .broken _ _ _, _ => .refl _

private theorem steady_collect (numbered : Bool) : Steady (collect numbered) := by
  intro node
  cases node with
  | object start entries =>
      exact (sameAnswer_collectEntries numbered entries none).bind fun _ => .refl _
  | array start items =>
      cases items with
      | done mark => exact .failure rfl
      | broken mark surplus read skip => exact .refl _
      | item mark surplus node rest =>
          simp only [Node.unplaced, Json.Items.unplaced, collect, Json.Items.values_unplaced]
          exact ((steady_readKind numbered node).under (.index 0) rest.mark
            rest.unplaced.mark).bind fun kind => .refl _
  | tooDeep limit inner => exact .refl _
  | _ => exact sameAnswer_mismatch .typedValue _ _

private theorem steady_readTypedWithin (levels : Nat) (numbered : Bool) :
    Steady (readTypedWithin levels numbered) := by
  intro node
  cases levels with
  | zero => exact sameAnswer_mismatch .typedValue node _
  | succ levels =>
      -- the fields are read from the tree of what was collected, which is the same for both
      exact (steady_collect numbered node).bind fun _ => .refl _

private theorem steady_readTyped : Steady readTyped := by
  intro node
  rw [readTyped, readTyped, Node.height_unplaced]
  exact steady_readTypedWithin _ false node

private theorem steady_readProperty : Steady readProperty := by
  refine Record.Steady.read fun field declared draft node => ?_
  simp only [propertyRecord, List.mem_cons, List.not_mem_nil, or_false] at declared
  rw [declared]
  exact (steady_readTyped.readOption node).map _

private theorem steady_readModel : Steady readModel := by
  refine Record.Steady.read fun field declared draft node => ?_
  simp only [modelRecord, List.mem_cons, List.not_mem_nil, or_false] at declared
  rcases declared with rfl | rfl
  · exact (steady_readString node).map _
  · exact (steady_readProperty.readMap node).map _

/-! ### Texts -/

/-- No object of the text repeats a key. -/
def RepeatsNoKey (text : String) : Prop :=
  ∀ written, (Node.ofText text).value = .ok written → written.DistinctKeys

private theorem exists_written_of_parse {text : String} {value : Value}
    (parsed : Value.parse text = .ok value) :
    ∃ written, (Node.ofText text).value = .ok written ∧ value = written.collapse := by
  unfold Value.parse at parsed
  unfold Node.ofText
  generalize Json.readDocument text = document at parsed
  obtain ⟨node, after⟩ := document
  cases read : node.value with
  | error unreadable =>
      simp only [read] at parsed
      cases parsed
  | ok written =>
      refine ⟨written, rfl, ?_⟩
      cases rest : after.map Json.Cursor.skipBlanks with
      | none =>
          simp only [read, rest, Except.ok.injEq] at parsed
          exact parsed.symm
      | some cursor =>
          simp only [read, rest] at parsed
          cases ended : cursor.left.isEmpty with
          | false =>
              simp only [ended, Bool.false_eq_true, if_false] at parsed
              cases parsed
          | true =>
              simp only [ended, if_true, Except.ok.injEq] at parsed
              exact parsed.symm

/-- The text of a value without repeated keys is, but for places, the value. -/
private theorem unplaced_ofText {text : String} {value : Value}
    (parsed : Value.parse text = .ok value)
    (distinct : RepeatsNoKey text) :
    (Node.ofText text).unplaced = Node.ofValue .fewerWanted value := by
  obtain ⟨written, read, rfl⟩ := exists_written_of_parse parsed
  rw [(distinct written read).collapse_eq]
  exact Node.unplaced_of_value _ read

private theorem Steady.sameAnswer {α : Type} {read : Reader α} (steady : Steady read)
    {text : String}
    {value : Value} (parsed : Value.parse text = .ok value) (distinct : RepeatsNoKey text) :
    SameAnswer (fromText read text) (fromValue read value) := by
  unfold fromText fromValue
  rw [← unplaced_ofText parsed distinct]
  exact steady _

/-- Whatever a document is decoded to, its text and its value give the same answer. -/
structure DecodesAlike (text : String) (value : Value) : Prop where
  container : SameAnswer (fromText readContainer text) (fromValue readContainer value)
  typed : SameAnswer (fromText readTyped text) (fromValue readTyped value)
  model : SameAnswer (fromText readModel text) (fromValue readModel value)
  property : SameAnswer (fromText readProperty text) (fromValue readProperty value)
  enumMember : SameAnswer (fromText readEnumMember text) (fromValue readEnumMember value)
  normalized : SameAnswer (fromText readNormalized text) (fromValue readNormalized value)

theorem parse_decodesAlike {text : String} {value : Value}
    (parsed : Value.parse text = .ok value) (distinct : RepeatsNoKey text) :
    DecodesAlike text value where
  container := steady_readContainer.sameAnswer parsed distinct
  typed := steady_readTyped.sameAnswer parsed distinct
  model := steady_readModel.sameAnswer parsed distinct
  property := steady_readProperty.sameAnswer parsed distinct
  enumMember := steady_readEnumMember.sameAnswer parsed distinct
  normalized := steady_readNormalized.sameAnswer parsed distinct

/-- A model, but no container: operations have names. -/
def flawedText : String := "\x7b\"name\":\"A\",\"operations\":[\"run\",true]\x7d"

def flawedValue : Value :=
  .object [("name", .string "A"), ("operations", .array [.string "run", .bool true])]

private theorem value_flawedText : (Node.ofText flawedText).value = .ok flawedValue := by cbv

private theorem repeatsNoKey_flawedText : RepeatsNoKey flawedText := by
  intro written read
  rw [value_flawedText] at read
  obtain rfl := Except.ok.inj read
  refine .object (by decide) ?_
  simp only [List.forall_mem_cons]
  refine ⟨.string "A", .array ?_, by simp⟩
  simp only [List.forall_mem_cons]
  exact ⟨.string "run", .bool true, by simp⟩

theorem parse_decodesAlike_flawedText :
    Value.parse flawedText = .ok flawedValue ∧ RepeatsNoKey flawedText ∧
      DecodesAlike flawedText flawedValue ∧
      (fromText readContainer flawedText).mapError Failure.path =
        .error [.field "operations", .index 1] ∧
      fromText readModel flawedText = .ok ⟨"A", []⟩ := by
  have parsed : Value.parse flawedText = .ok flawedValue := by cbv
  exact ⟨parsed, repeatsNoKey_flawedText, parse_decodesAlike parsed repeatsNoKey_flawedText,
    by cbv, by cbv⟩

end SdkClients.Decode
