import SdkClients.Proofs.Decode.Fields
import SdkClients.Proofs.Decode.Unbounded
import SdkClients.Proofs.Json.PathText

set_option autoImplicit false

/-!
Failures point at the node at fault.

A failure in a list or a record is one of the list or record itself, or one of an item or a field
with one more step in front of its path. So the path of a failure leads from a document to a value in
it, and what this value is wanted as fails right there for the same reason.
-/

namespace SdkClients.Decode

open Json (Node Items Entries Surplus Value Segment)

/-! ### Places in declarations -/

/-- What a value in the document of a container is wanted as. -/
inductive Wanted where
  | declaration
  | text
  | flag
  | texts
  | declarations
deriving DecidableEq, Repr

namespace Wanted

def Meaning : Wanted → Type
  | .declaration => ContainerDecl
  | .text => String
  | .flag => Bool
  | .texts => List String
  | .declarations => List ContainerDecl

def read : (wanted : Wanted) → Reader wanted.Meaning
  | .declaration => readContainer
  | .text => readString
  | .flag => readBool
  | .texts => readList readString
  | .declarations => readList readContainer

/-- The fields of a declaration, in the order in which an array has them. -/
def fields : List (String × Wanted) :=
  [("name", .text), ("service", .flag), ("client", .flag), ("operations", .texts),
    ("namespaces", .declarations), ("interfaces", .declarations)]

/-- What is wanted one step further inside. -/
def inner? : Wanted → Segment → Option Wanted
  | .declaration, .field name => Keyed.get? fields name
  | .declaration, .index position => fields[position]?.map (·.2)
  | .texts, .index _ => some .text
  | .declarations, .index _ => some .declaration
  | _, _ => none

end Wanted

/-- The value that stands one step further inside. -/
def stepInto? : Value → Segment → Option Value
  | .object entries, .field name => Keyed.get? entries name
  | .array items, .index position => items[position]?
  | _, _ => none

/-- Follows a path from a value and what it is wanted as. -/
def follow? : List Segment → Wanted → Value → Option (Wanted × Value)
  | [], wanted, document => some (wanted, document)
  | step :: path, wanted, document =>
      match wanted.inner? step, stepInto? document step with
      | some inner, some content => follow? path inner content
      | _, _ => none

/-- The path of a failure leads to a value that fails right there for the same reason. -/
def Pinpoints (wanted : Wanted) (document : Value) (failure : Failure) : Prop :=
  ∃ last target, follow? failure.path wanted document = some (last, target) ∧
    fromValue last.read target = .error { failure with path := [] }

private theorem Pinpoints.here {wanted : Wanted} {document : Value} {failure : Failure}
    (failed : fromValue wanted.read document = .error failure) (own : failure.path = []) :
    Pinpoints wanted document failure := by
  refine ⟨wanted, document, by rw [own, follow?], ?_⟩
  rw [failed, ← own]

private theorem Pinpoints.under {wanted inner : Wanted} {document content : Value}
    {failure : Failure}
    {step : Segment} (declared : wanted.inner? step = some inner)
    (stands : stepInto? document step = some content) (points : Pinpoints inner content failure) :
    Pinpoints wanted document (failure.under step) := by
  obtain ⟨last, target, followed, failed⟩ := points
  refine ⟨last, target, ?_, failed⟩
  simp only [Failure.under, follow?, declared, stands, followed]

/-! ### Failures of lists and records -/

section

variable {α δ : Type} {read : Reader α} {surplus : Surplus}

@[simp] theorem Failure.orAt_none (failure : Failure) : failure.orAt none = failure := by
  rw [Failure.orAt, Option.or_none]

@[simp] theorem mark_ofValues (items : List Value) :
    (Items.ofValues surplus items).mark = none := by
  cases items <;> rfl

@[simp] theorem mark_ofPairs (entries : List (String × Value)) :
    (Entries.ofPairs surplus entries).mark = none := by
  cases entries <;> rfl

private theorem readItems_eq_error {items : List Value} {position : Nat} {failure : Failure}
    (failed : readItems read position (Items.ofValues surplus items) = .error failure) :
    ∃ place content reason, items[place]? = some content ∧
      read (Node.ofValue surplus content) = .error reason ∧
      failure = reason.under (.index (position + place)) := by
  induction items generalizing position with
  | nil => cases failed
  | cons item items ih =>
      simp only [Items.ofValues, readItems, bind_eq_error_iff, mapError_eq_error_iff, mark_ofValues,
        Failure.orAt_none] at failed
      rcases failed with ⟨reason, here, rfl⟩ | ⟨value, -, later | ⟨_, _, absurd⟩⟩
      · exact ⟨0, item, reason, rfl, here, rfl⟩
      · obtain ⟨place, content, reason, stands, there, rfl⟩ := ih later
        refine ⟨place + 1, content, reason, stands, there, ?_⟩
        rw [Nat.add_right_comm, Nat.add_assoc]
      · cases absurd

/-- A list fails as a whole or in one of its items. -/
private theorem readList_eq_error {document : Value} {failure : Failure}
    (failed : readList read (Node.ofValue surplus document) = .error failure) :
    failure.path = [] ∨ ∃ place content reason, stepInto? document (.index place) = some content ∧
      read (Node.ofValue surplus content) = .error reason ∧ failure = reason.under (.index place) := by
  cases document with
  | array items =>
      obtain ⟨place, content, reason, stands, there, rfl⟩ := readItems_eq_error failed
      exact .inr ⟨place, content, reason, stands, there, by rw [Nat.zero_add]⟩
  | null | bool | number | string | object =>
      cases failed
      exact .inl rfl

namespace Record

variable {record : Record δ α}

/-- A field that has been read counts as set. -/
def Remembers (record : Record δ α) : Prop :=
  ∀ field ∈ record.fields, ∀ draft node next, field.read draft node = .ok next →
    field.isSet next = true

/-- The first entry under a name is the one that is read, since a second one is a failure of the
record. -/
private theorem readEntries_eq_error (lawful : record.Lawful) (remembers : record.Remembers)
    {entries : List (String × Value)} {draft : δ} {failure : Failure}
    (failed : record.readEntries draft (Entries.ofPairs surplus entries) = .error failure) :
    failure.path = [] ∨ ∃ field ∈ record.fields, field.isSet draft = false ∧
      ∃ content reached reason, Keyed.get? entries field.name = some content ∧
        field.read reached (Node.ofValue surplus content) = .error reason ∧
        failure = reason.under (.field field.name) := by
  induction entries generalizing draft with
  | nil =>
      rw [Entries.ofPairs, readEntries, mapError_eq_error_iff] at failed
      obtain ⟨cause, -, rfl⟩ := failed
      exact .inl rfl
  | cons entry entries ih =>
      obtain ⟨key, document⟩ := entry
      rw [Entries.ofPairs, readEntries, readKey_ok, ok_bind] at failed
      cases declared : record.fields.find? fun field => field.name == key with
      | none =>
          have undeclared : ∀ field ∈ record.fields, field.name ≠ key := by
            simpa using List.find?_eq_none.mp declared
          simp only [declared, Node.skip_ofValue] at failed
          refine (ih failed).imp_right ?_
          rintro ⟨field, member, unset, content, reached, reason, stands, there⟩
          refine ⟨field, member, unset, content, reached, reason, ?_, there⟩
          rw [Keyed.get?_cons, if_neg (Ne.symm (undeclared field member)), stands]
      | some field =>
          have member : field ∈ record.fields := List.mem_of_find?_eq_some declared
          obtain rfl : field.name = key := by simpa using List.find?_some declared
          simp only [declared] at failed
          cases set : field.isSet draft with
          | true =>
              simp only [set, if_true, throw_eq_error, error_bind, Except.error.injEq] at failed
              exact .inl (failed ▸ rfl)
          | false =>
              simp only [set, Bool.false_eq_true, if_false, bind_eq_error_iff, mapError_eq_ok_iff,
                mapError_eq_error_iff, mark_ofPairs, Failure.orAt_none] at failed
              rcases failed with ⟨reason, here, rfl⟩ | ⟨next, read, later⟩
              · refine .inr ⟨field, member, set, document, draft, reason, ?_, here, rfl⟩
                rw [Keyed.get?_cons, if_pos rfl]
              · refine (ih later).imp_right ?_
                rintro ⟨other, another, unset, content, reached, reason, stands, there⟩
                have different : field ≠ other := by
                  rintro rfl
                  cases unset.symm.trans (remembers field member draft _ next read)
                have apart := lawful.apart_of_ne member another different
                have names : field.name ≠ other.name := fun same =>
                  different (List.inj_on_of_nodup_map lawful.names member another same)
                refine ⟨other, another, ?_, content, reached, reason, ?_, there⟩
                · rw [← apart.keepsSecond draft _ next read, unset]
                · rw [Keyed.get?_cons, if_neg names, stands]

private theorem readFields_eq_error {fields : List (Field δ)} {draft : δ} {items : List Value}
    {position : Nat} {failure : Failure}
    (failed : record.readFields position fields draft (Items.ofValues surplus items) =
      .error failure) :
    failure.path = [] ∨ ∃ (place : Nat) (field : Field δ) (content : Value) (reached : δ)
      (reason : Failure), fields[place]? = some field ∧ items[place]? = some content ∧
        field.read reached (Node.ofValue surplus content) = .error reason ∧
        failure = reason.under (.index (position + place)) := by
  -- on the fields, which may outlast the items
  induction fields generalizing position draft items with
  | nil =>
      cases items with
      | nil =>
          rw [Items.ofValues, readFields, mapError_eq_error_iff] at failed
          obtain ⟨cause, -, rfl⟩ := failed
          exact .inl rfl
      | cons =>
          cases failed
          exact .inl (by cases surplus <;> rfl)
  | cons field fields ih =>
      cases items with
      | nil =>
          rw [Items.ofValues, readFields] at failed
          cases needed : field.required with
          | true =>
              rw [needed] at failed
              cases failed
              exact .inl rfl
          | false =>
              rw [needed] at failed
              have later : record.readFields (position + 1) fields draft
                  (Items.ofValues surplus []) = .error failure := failed
              refine (ih later).imp_right ?_
              rintro ⟨_, _, _, _, _, _, absurd, _⟩
              cases absurd
      | cons item items =>
          simp only [Items.ofValues, readFields, bind_eq_error_iff, mapError_eq_error_iff,
            mark_ofValues, Failure.orAt_none] at failed
          rcases failed with ⟨reason, here, rfl⟩ | ⟨next, -, later⟩
          · exact .inr ⟨0, field, item, draft, reason, rfl, rfl, here, rfl⟩
          · refine (ih later).imp_right ?_
            rintro ⟨place, other, content, reached, reason, declared, stands, there, rfl⟩
            refine ⟨place + 1, other, content, reached, reason, declared, stands, there, ?_⟩
            rw [Nat.add_right_comm, Nat.add_assoc]

private theorem read_eq_error (lawful : record.Lawful) (remembers : record.Remembers)
    {document : Value}
    {failure : Failure} (failed : record.read (Node.ofValue surplus document) = .error failure) :
    failure.path = [] ∨ ∃ (place : Nat) (field : Field δ) (step : Segment) (content : Value)
      (reached : δ) (reason : Failure), record.fields[place]? = some field ∧
        (step = .field field.name ∨ step = .index place) ∧
        stepInto? document step = some content ∧
        field.read reached (Node.ofValue surplus content) = .error reason ∧
        failure = reason.under step := by
  cases document with
  | object entries =>
      refine (readEntries_eq_error lawful remembers failed).imp_right ?_
      rintro ⟨field, member, -, content, reached, reason, stands, there, rfl⟩
      obtain ⟨place, declared⟩ := List.mem_iff_getElem?.mp member
      exact ⟨place, field, _, content, reached, reason, declared, .inl rfl, stands, there, rfl⟩
  | array items =>
      refine (readFields_eq_error failed).imp_right ?_
      rintro ⟨place, field, content, reached, reason, declared, stands, there, rfl⟩
      rw [Nat.zero_add]
      exact ⟨place, field, _, content, reached, reason, declared, .inr rfl, stands, there, rfl⟩
  | null | bool | number | string =>
      cases failed
      exact .inl rfl

end Record

end

/-! ### Failures of declarations -/

private theorem remembers_containerRecord (inner : Reader ContainerDecl) :
    (containerRecord inner).Remembers := by
  intro field declared draft node next read
  simp only [containerRecord, List.mem_cons, List.not_mem_nil, or_false] at declared
  rcases declared with rfl | rfl | rfl | rfl | rfl | rfl <;>
    obtain ⟨value, -, rfl⟩ := map_eq_ok_iff.mp read <;>
    rfl

private theorem exists_wanted_of_field {place : Nat} {field : Field ContainerDraft}
    {draft : ContainerDraft}
    {node : Node} {reason : Failure}
    (declared : (containerRecord readContainer).fields[place]? = some field)
    (failed : field.read draft node = .error reason) :
    ∃ wanted : Wanted, Wanted.fields[place]? = some (field.name, wanted) ∧
      wanted.read node = .error reason := by
  match place with
  | 0 | 1 | 2 | 3 | 4 | 5 =>
      cases declared
      exact ⟨_, rfl, map_eq_error_iff.mp failed⟩
  | place + 6 => cases declared

private theorem inner?_of_fields {place : Nat} {name : String} {wanted : Wanted} {step : Segment}
    (declared : Wanted.fields[place]? = some (name, wanted))
    (named : step = .field name ∨ step = .index place) :
    Wanted.declaration.inner? step = some wanted := by
  rcases named with rfl | rfl
  · match place with
    | 0 | 1 | 2 | 3 | 4 | 5 =>
        cases declared
        rfl
    | place + 6 => cases declared
  · rw [Wanted.inner?, declared]
    rfl

private theorem height_stepInto?_lt {document content : Value} {step : Segment}
    (stands : stepInto? document step = some content) : content.height < document.height := by
  cases document with
  | array items =>
      cases step with
      | index => exact Nat.lt_succ_of_le (Value.height_le_of_mem_items (List.mem_of_getElem? stands))
      | field | unnamed => cases stands
  | object entries =>
      cases step with
      | field =>
          obtain ⟨entry, found, rfl⟩ := Option.map_eq_some_iff.mp stands
          exact Nat.lt_succ_of_le (Value.height_le_of_mem_entries (List.mem_of_find?_eq_some found))
      | index | unnamed => cases stands
  | null | bool | number | string => cases stands

/-- Every failure of what can be wanted in a declaration points at the value at fault. -/
private theorem pinpoints (wanted : Wanted) {document : Value} {failure : Failure}
    (failed : fromValue wanted.read document = .error failure) :
    Pinpoints wanted document failure := by
  obtain ⟨height, same⟩ : ∃ height, document.height = height := ⟨_, rfl⟩
  -- on the height: a failure that is not of the value itself is of one inside it
  induction height using Nat.strongRecOn generalizing wanted document failure with
  | ind height ih =>
      subst same
      have inside : ∀ (inner : Wanted) {step : Segment} {content : Value} {reason : Failure},
          wanted.inner? step = some inner → stepInto? document step = some content →
          fromValue inner.read content = .error reason →
          Pinpoints wanted document (reason.under step) := by
        intro inner step content reason declared stands there
        exact .under declared stands (ih _ (height_stepInto?_lt stands) inner there rfl)
      cases wanted with
      | text =>
          refine .here failed ?_
          cases document <;> cases failed <;> rfl
      | flag =>
          refine .here failed ?_
          cases document <;> cases failed <;> rfl
      | texts =>
          rcases readList_eq_error failed with own | ⟨place, content, reason, stands, there, rfl⟩
          · exact .here failed own
          · exact inside .text rfl stands there
      | declarations =>
          rcases readList_eq_error failed with own | ⟨place, content, reason, stands, there, rfl⟩
          · exact .here failed own
          · exact inside .declaration rfl stands there
      | declaration =>
          have record : (containerRecord readContainer).read (Node.ofValue .fewerWanted document) =
              .error failure := (readContainer_eq _).symm.trans failed
          rcases Record.read_eq_error (lawful_containerRecord _) (remembers_containerRecord _) record
            with own | ⟨place, field, step, content, draft, reason, declared, named, stands, there, rfl⟩
          · exact .here failed own
          · obtain ⟨inner, listed, alone⟩ := exists_wanted_of_field declared there
            exact inside inner (inner?_of_fields listed named) stands alone

/-! ### The texts of paths -/

private theorem isPlain_of_inner? {wanted inner : Wanted} {step : Segment}
    (declared : wanted.inner? step = some inner) : step.IsPlain := by
  cases step with
  | index => trivial
  | unnamed => cases wanted <;> cases declared
  | field name =>
      cases wanted with
      | declaration =>
          have names : ∀ field ∈ Wanted.fields, (Segment.field field.1).IsPlain := by
            simp [Wanted.fields, Segment.IsPlain]
          obtain ⟨field, found, -⟩ := Option.map_eq_some_iff.mp declared
          obtain rfl : field.1 = name := by simpa using List.find?_some found
          exact names field (List.mem_of_find?_eq_some found)
      | text | flag | texts | declarations => cases declared

private theorem isPlain_of_follow? {path : List Segment} {wanted : Wanted} {document : Value}
    {found : Wanted × Value} (followed : follow? path wanted document = some found) :
    ∀ step ∈ path, step.IsPlain := by
  induction path generalizing wanted document with
  | nil => exact List.forall_mem_nil _
  | cons step path ih =>
      rw [follow?] at followed
      cases declared : wanted.inner? step with
      | none => simp [declared] at followed
      | some inner =>
          cases stands : stepInto? document step with
          | none => simp [declared, stands] at followed
          | some content =>
              simp only [declared, stands] at followed
              exact List.forall_mem_cons.mpr ⟨isPlain_of_inner? declared, ih followed⟩

/-- What the report of a failure says of a value in the document of a container. -/
structure PointsAt (document : Value) (failure : Failure) (wanted : Wanted) (target : Value) :
    Prop where
  /-- The path leads from the document to the value. -/
  leads : follow? failure.path .declaration document = some (wanted, target)
  /-- No other path that leads anywhere in the document has the same text. -/
  only : ∀ path found, follow? path .declaration document = some found →
    Json.describePath path = failure.pathText → path = failure.path
  /-- Decoded alone as what is wanted there, the value fails at its root with the same message. -/
  alone : ∃ again, fromValue wanted.read target = .error again ∧ again.pathText = "." ∧
    again.message = failure.message

/-- A document that is no container has a value at fault, and the failure points at it. -/
theorem fromValue_readContainer_pointsAt {document : Value} {failure : Failure}
    (failed : fromValue readContainer document = .error failure) :
    ∃ wanted target, PointsAt document failure wanted target := by
  obtain ⟨wanted, target, followed, alone⟩ := pinpoints .declaration failed
  refine ⟨wanted, target, followed, ?_, _, alone, rfl, rfl⟩
  intro path found other same
  exact Json.describePath_inj (isPlain_of_follow? other) (isPlain_of_follow? followed) same

/-- An array inside an object inside an array: the operations of the interface are no list of
names. -/
def flawedContainer : Value :=
  .array [.string "A", .bool true, .bool false, .array [],
    .array [.object [("note", .null), ("name", .string "B"),
      ("interfaces", .array [.array [.string "C", .bool false, .bool false,
        .array [.string "run", .bool true]]])]]]

theorem fromValue_readContainer_pointsAt_flawedContainer :
    ∃ failure, fromValue readContainer flawedContainer = .error failure ∧
      failure.pathText = "[4][0].interfaces[0][3][1]" ∧
      failure.message = "invalid type: boolean `true`, expected a string" ∧
      ∃ wanted target, PointsAt flawedContainer failure wanted target := by
  obtain ⟨failure, failed, path, message⟩ : ∃ failure,
      fromValue readContainer flawedContainer = .error failure ∧
        failure.pathText = "[4][0].interfaces[0][3][1]" ∧
        failure.message = "invalid type: boolean `true`, expected a string" :=
    ⟨_, rfl, by decide, by decide⟩
  exact ⟨failure, failed, path, message, fromValue_readContainer_pointsAt failed⟩

end SdkClients.Decode
