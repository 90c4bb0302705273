import SdkClients.Decode
import SdkClients.Proofs.Json.Unplaced

set_option autoImplicit false

/-!
Readers do not see places.

Places end up in messages and nowhere else. A reader that is given a tree without its places
therefore gives the same value, or fails with the same path. This is shown for every shape from
the same fact about what stands inside it, and so for every kind of document.
-/

namespace SdkClients.Decode

open Json (Node Items Entries)

variable {α β δ : Type}

/-- Answers with the same value, or with the same path to a failure. -/
inductive SameAnswer : Except Failure α → Except Failure α → Prop
  | value (value : α) : SameAnswer (.ok value) (.ok value)
  | failure {left right : Failure} : left.path = right.path →
      SameAnswer (.error left) (.error right)

namespace SameAnswer

theorem refl (answer : Except Failure α) : SameAnswer answer answer := by
  cases answer with
  | ok value => exact .value value
  | error failure => exact .failure rfl

theorem bind {left right : Except Failure α} {next other : α → Except Failure β}
    (same : SameAnswer left right) (later : ∀ value, SameAnswer (next value) (other value)) :
    SameAnswer (left >>= next) (right >>= other) := by
  cases same with
  | value value => exact later value
  | failure path => exact .failure path

theorem map {left right : Except Failure α} (same : SameAnswer left right) (f : α → β) :
    SameAnswer (left.map f) (right.map f) := by
  cases same with
  | value value => exact .value (f value)
  | failure path => exact .failure path

/-- Both answers seen from one level further up, where different places may be offered. -/
theorem under {left right : Except Failure α} (same : SameAnswer left right) (step : Json.Segment)
    (place other : Option Json.Position) :
    SameAnswer (left.mapError fun failure => (failure.under step).orAt place)
      (right.mapError fun failure => (failure.under step).orAt other) := by
  cases same with
  | value value => exact .value value
  | failure path => exact .failure (congrArg (step :: ·) path)

end SameAnswer

/-- A reader that gives the same answer when there are no places. -/
def Steady (read : Reader α) : Prop := ∀ node, SameAnswer (read node) (read node.unplaced)

private theorem mismatch_path (expected : Expected) : ∀ node, (mismatch expected node).path = []
  | .null _ | .bool _ _ | .number _ _ | .string _ _ | .array _ _ | .object _ _
  | .unreadable _ _ => rfl
  | .tooDeep _ inner => mismatch_path expected inner

theorem sameAnswer_mismatch (expected : Expected) (node other : Node) :
    SameAnswer (.error (mismatch expected node) : Except Failure α)
      (.error (mismatch expected other)) :=
  .failure ((mismatch_path expected node).trans (mismatch_path expected other).symm)

/-! ### Scalars -/

theorem steady_readString : Steady readString := by
  intro node
  cases node with
  | string text after => exact .value text
  | _ => exact sameAnswer_mismatch .string _ _

theorem steady_readBool : Steady readBool := by
  intro node
  cases node with
  | bool value after => exact .value value
  | _ => exact sameAnswer_mismatch .boolean _ _

theorem Steady.readOption {read : Reader α} (steady : Steady read) :
    Steady (readOption read) := by
  intro node
  cases node with
  | null after => exact .value none
  | _ => exact (steady _).map some

/-! ### Lists and maps -/

private theorem Steady.readItems {read : Reader α} (steady : Steady read) :
    ∀ (items : Items) (position : Nat),
      SameAnswer (readItems read position items) (readItems read position items.unplaced)
  | .done _, _ => .value []
  | .item _ _ node rest, position => by
      rw [Items.unplaced, Decode.readItems, Decode.readItems]
      refine ((steady node).under (.index position) rest.mark rest.unplaced.mark).bind ?_
      intro value
      exact (steady.readItems rest (position + 1)).bind fun others => .refl _
  | .broken _ _ _ _, _ => .failure rfl

theorem Steady.readList {read : Reader α} (steady : Steady read) : Steady (readList read) := by
  intro node
  cases node with
  | array start items => exact steady.readItems items 0
  | tooDeep limit inner =>
      cases inner with
      | array start items => exact .refl _
      | _ => exact sameAnswer_mismatch .list _ _
  | _ => exact sameAnswer_mismatch .list _ _

private theorem Steady.readPairs {read : Reader α} (steady : Steady read) :
    ∀ entries : Entries,
      SameAnswer (readPairs read entries) (readPairs read entries.unplaced)
  | .done _ => .value []
  | .entry _ key _ node rest => by
      rw [Entries.unplaced, Decode.readPairs, Decode.readPairs]
      refine (SameAnswer.refl (readKey key)).bind fun name => ?_
      refine ((steady node).under (.field name) rest.mark rest.unplaced.mark).bind ?_
      intro value
      exact (steady.readPairs rest).bind fun others => .refl _
  | .noColon _ _ _ _ => .refl _
  | .broken _ _ _ => .refl _

theorem Steady.readMap {read : Reader α} (steady : Steady read) : Steady (readMap read) := by
  intro node
  cases node with
  | object start entries => exact (steady.readPairs entries).map Keyed.ofList
  | tooDeep limit inner =>
      cases inner with
      | object start entries => exact .refl _
      | _ => exact sameAnswer_mismatch .map _ _
  | _ => exact sameAnswer_mismatch .map _ _

/-! ### Records -/

private theorem SameAnswer.complete (record : Record δ α) (draft : δ)
    (place other : Option Json.Position) :
    SameAnswer ((record.complete draft).mapError (Failure.here · place))
      ((record.complete draft).mapError (Failure.here · other)) := by
  cases record.complete draft with
  | ok value => exact .value value
  | error cause => exact .failure rfl

/-- A record whose fields are read by such readers. -/
def Record.Steady (record : Record δ α) : Prop :=
  ∀ field ∈ record.fields, ∀ draft, Decode.Steady (field.read draft)

namespace Record.Steady

variable {record : Record δ α}

private theorem readEntries (steady : record.Steady) :
    ∀ (entries : Entries) (draft : δ),
      SameAnswer (record.readEntries draft entries) (record.readEntries draft entries.unplaced)
  | .done mark, draft => by
      rw [Entries.unplaced, Record.readEntries, Record.readEntries]
      exact .complete record draft mark none
  | .entry _ key keyMark node rest, draft => by
      rw [Entries.unplaced, Record.readEntries, Record.readEntries]
      refine (SameAnswer.refl (readKey key)).bind fun name => ?_
      cases declared : record.fields.find? (fun field => field.name == name) with
      | none =>
          rw [Node.skip_unplaced]
          cases node.skip with
          | some malformed => exact .refl _
          | none => exact steady.readEntries rest draft
      | some field =>
          have member : field ∈ record.fields := List.mem_of_find?_eq_some declared
          cases set : field.isSet draft with
          | true =>
              simp only [set, if_true, throw_eq_error, error_bind]
              exact .failure rfl
          | false =>
              simp only [set, Bool.false_eq_true, if_false]
              refine ((steady field member draft node).under (.field name) rest.mark
                rest.unplaced.mark).bind fun next => ?_
              exact steady.readEntries rest next
  | .noColon _ key keyMark malformed, draft => by
      rw [Entries.unplaced, Record.readEntries, Record.readEntries]
      refine (SameAnswer.refl (readKey key)).bind fun name => ?_
      cases record.fields.find? (fun field => field.name == name) with
      | none => exact .refl _
      | some field =>
          cases set : field.isSet draft with
          | true =>
              simp only [set, if_true, throw_eq_error, error_bind]
              exact .failure rfl
          | false =>
              simp only [set, Bool.false_eq_true, if_false]
              exact .refl _
  | .broken _ _ _, _ => .refl _

private theorem surplusFailure_path (position : Nat) (surplus : Json.Surplus) (count : Nat) :
    (surplusFailure position surplus count).path = [] := by
  cases surplus <;> rfl

private theorem readFields (steady : record.Steady) (fields : List (Field δ))
    (declared : ∀ field ∈ fields, field ∈ record.fields) (position : Nat) (draft : δ)
    (items : Items) :
    SameAnswer (record.readFields position fields draft items)
      (record.readFields position fields draft items.unplaced) := by
  -- on the fields, which may outlast the items
  induction fields generalizing position draft items with
  | nil =>
      cases items with
      | done mark =>
          rw [Items.unplaced, Record.readFields, Record.readFields]
          exact .complete record draft mark none
      | item mark surplus node rest =>
          exact .failure ((surplusFailure_path _ _ _).trans (surplusFailure_path _ _ _).symm)
      | broken mark surplus read skip =>
          exact .failure ((surplusFailure_path _ _ _).trans (surplusFailure_path _ _ _).symm)
  | cons field fields ih =>
      obtain ⟨member, others⟩ := List.forall_mem_cons.mp declared
      cases items with
      | done mark =>
          rw [Items.unplaced, Record.readFields, Record.readFields]
          cases field.required with
          | true => exact .failure rfl
          | false => exact ih others (position + 1) draft (.done mark)
      | item mark surplus node rest =>
          rw [Items.unplaced, Record.readFields, Record.readFields]
          refine ((steady field member draft node).under (.index position) rest.mark
            rest.unplaced.mark).bind fun next => ?_
          exact ih others (position + 1) next rest
      | broken mark surplus read skip => exact .refl _

theorem read (steady : record.Steady) : Decode.Steady record.read := by
  intro node
  cases node with
  | array start items =>
      exact steady.readFields record.fields (fun _ member => member) 0 record.empty items
  | object start entries => exact steady.readEntries entries record.empty
  | tooDeep limit inner => exact .refl _
  | _ => exact sameAnswer_mismatch (.record record.title) _ _

end Record.Steady

end SdkClients.Decode
