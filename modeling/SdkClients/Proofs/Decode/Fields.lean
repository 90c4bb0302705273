import Mathlib.Data.List.Pairwise
import Mathlib.Logic.Function.Basic
import SdkClients.Proofs.Decode.Success

set_option autoImplicit false

/-!
Records by what stands under their fields.

The fields of a record set different parts of its draft, so it does not matter in which order they are
set. A record that is read from an object without repeated keys is therefore filled field by field
with what the object has under their names, wherever it has it and whatever stands beside it. Two
records with the same fields agree on two documents as soon as their fields agree on what the
documents have for them.
-/

namespace SdkClients.Decode

open Json (Node Items Entries Surplus Value)

variable {α β γ δ : Type} {surplus : Surplus}

/-- What a reader makes of a finished value, if it makes anything of it. -/
def meaning? (read : Reader α) (surplus : Surplus) (document : Value) : Option α :=
  (read (Node.ofValue surplus document)).toOption

theorem meaning?_eq_some_iff {read : Reader α} {document : Value} {value : α} :
    meaning? read surplus document = some value ↔
      read (Node.ofValue surplus document) = .ok value :=
  toOption_eq_some_iff

theorem meaning?_readOption {read : Reader α} {document : Value} (present : document ≠ .null) :
    meaning? (readOption read) surplus document = (meaning? read surplus document).map some := by
  cases document with
  | null => exact absurd rfl present
  | bool | number | string | array | object => exact toOption_map

private theorem get?_cons_eq_update (key : String) (value : Value)
    (entries : List (String × Value)) :
    Keyed.get? ((key, value) :: entries) =
      Function.update (Keyed.get? entries) key (some value) := by
  funext name
  rw [Keyed.get?_cons, Function.update_apply]
  simp only [eq_comm]

/-! ### Fields -/

namespace Field

/-- Sets a field to what was found for it. -/
def set? (surplus : Surplus) (field : Field δ) (found : Option Value) (draft : δ) : Option δ :=
  match found with
  | none => some draft
  | some document => meaning? (field.read draft) surplus document

/-- Two fields that have nothing to do with each other. -/
structure Apart (first second : Field δ) : Prop where
  commute : ∀ surplus draft left right,
    (meaning? (first.read draft) surplus left).bind
        (fun next => meaning? (second.read next) surplus right) =
      (meaning? (second.read draft) surplus right).bind
        (fun next => meaning? (first.read next) surplus left)
  keepsSecond : ∀ draft node next, first.read draft node = .ok next →
    second.isSet next = second.isSet draft
  keepsFirst : ∀ draft node next, second.read draft node = .ok next →
    first.isSet next = first.isSet draft

private theorem Apart.symm {first second : Field δ} (apart : Apart first second) :
    Apart second first where
  commute := fun surplus draft left right => (apart.commute surplus draft right left).symm
  keepsSecond := apart.keepsFirst
  keepsFirst := apart.keepsSecond

/-- A field that puts what was read into the draft. -/
def putting (name : String) (required : Bool) (isSet : δ → Bool) (read : Reader β)
    (put : δ → β → δ) : Field δ :=
  ⟨name, required, isSet, fun draft node => (read node).map (put draft)⟩

section Putting

variable {name other : String} {required wanted : Bool} {isSet isOtherSet : δ → Bool}
variable {read : Reader β} {readOther : Reader γ} {put : δ → β → δ} {putOther : δ → γ → δ}

theorem meaning?_putting (draft : δ) (document : Value) :
    meaning? ((putting name required isSet read put).read draft) surplus document =
      (meaning? read surplus document).map (put draft) :=
  toOption_map

theorem set?_putting {found : Option Value} {draft next : δ}
    (set : (putting name required isSet read put).set? surplus found draft = some next) :
    (found = none ∧ next = draft) ∨
      ∃ document value, found = some document ∧ meaning? read surplus document = some value ∧
        next = put draft value := by
  cases found with
  | none => exact .inl ⟨rfl, (Option.some.inj set).symm⟩
  | some document =>
      rw [set?, meaning?_putting] at set
      obtain ⟨value, made, rfl⟩ := Option.map_eq_some_iff.mp set
      exact .inr ⟨document, value, rfl, made, rfl⟩

/-- Such fields have nothing to do with each other if they put things into different places. -/
private theorem apart_putting
    (commute : ∀ draft left right, putOther (put draft left) right = put (putOther draft right) left)
    (keepsSecond : ∀ draft left, isOtherSet (put draft left) = isOtherSet draft)
    (keepsFirst : ∀ draft right, isSet (putOther draft right) = isSet draft) :
    Apart (putting name required isSet read put)
      (putting other wanted isOtherSet readOther putOther) where
  commute := by
    intro surplus draft left right
    simp only [meaning?_putting]
    cases meaning? read surplus left <;> cases meaning? readOther surplus right <;>
      simp [commute]
  keepsSecond := by
    intro draft node next success
    obtain ⟨found, -, rfl⟩ := map_eq_ok_iff.mp success
    exact keepsSecond draft found
  keepsFirst := by
    intro draft node next success
    obtain ⟨found, -, rfl⟩ := map_eq_ok_iff.mp success
    exact keepsFirst draft found

end Putting

/-- Two fields that are set to the same by what two documents have for them. -/
structure Alike (surplus : Surplus) (first second : Field δ) (found other : Option Value) :
    Prop where
  name : first.name = second.name
  required : first.required = second.required
  set : ∀ draft, first.set? surplus found draft = second.set? surplus other draft

theorem alike_putting {name : String} {required : Bool} {isSet : δ → Bool}
    {read readOther : Reader β} {put : δ → β → δ} {found other : Option Value}
    (same : found.map (meaning? read surplus) = other.map (meaning? readOther surplus)) :
    Alike surplus (putting name required isSet read put) (putting name required isSet readOther put)
      found other where
  name := rfl
  required := rfl
  set := by
    intro draft
    cases found with
    | none =>
        obtain rfl : other = none := Option.map_eq_none_iff.mp same.symm
        rfl
    | some document =>
        obtain ⟨document, rfl, agree⟩ := Option.map_eq_some_iff.mp same.symm
        simp only [set?, meaning?_putting, agree]

end Field

/-! ### Drafts -/

/-- Sets fields one after the other from what can be looked up under their names. -/
def fill (surplus : Surplus) (look : String → Option Value) (fields : List (Field δ)) (draft : δ) :
    Option δ :=
  fields.foldlM (fun draft field => field.set? surplus (look field.name) draft) draft

theorem fill_cons (look : String → Option Value) (field : Field δ) (fields : List (Field δ))
    (draft : δ) :
    fill surplus look (field :: fields) draft =
      (field.set? surplus (look field.name) draft).bind (fill surplus look fields) := rfl

private theorem fill_none (fields : List (Field δ)) (draft : δ) :
    fill surplus (fun _ => none) fields draft = some draft := by
  induction fields with
  | nil => rfl
  | cons field fields ih => exact ih

private theorem fill_congr {look other : String → Option Value} {fields : List (Field δ)}
    (same : ∀ field ∈ fields, look field.name = other field.name) :
    fill surplus look fields = fill surplus other fields := by
  induction fields with
  | nil => rfl
  | cons field fields ih =>
      obtain ⟨sameHere, sameLater⟩ := List.forall_mem_cons.mp same
      funext draft
      rw [fill_cons, fill_cons, sameHere, ih sameLater]

private theorem fill_update_of_not_mem {look : String → Option Value} {fields : List (Field δ)}
    {key : String}
    {found : Option Value} (undeclared : ∀ field ∈ fields, field.name ≠ key) :
    fill surplus (Function.update look key found) fields = fill surplus look fields :=
  fill_congr fun field member => Function.update_of_ne (undeclared field member) _ _

/-- What stands under a field can as well be put into the draft before all the others. -/
private theorem fill_update_of_mem {look : String → Option Value} {fields : List (Field δ)}
    {field : Field δ}
    {document : Value} (names : (fields.map Field.name).Nodup)
    (apart : fields.Pairwise Field.Apart) (member : field ∈ fields) (free : look field.name = none)
    (draft : δ) :
    fill surplus (Function.update look field.name (some document)) fields draft =
      (meaning? (field.read draft) surplus document).bind (fill surplus look fields) := by
  -- on the fields: the first of them is the one that is set, or can be set after it as well
  induction fields generalizing draft with
  | nil => cases member
  | cons first others ih =>
      rw [List.map_cons, List.nodup_cons] at names
      obtain ⟨fresh, namesLater⟩ := names
      obtain ⟨apartHere, apartLater⟩ := List.pairwise_cons.mp apart
      rw [fill_cons]
      by_cases here : field = first
      · subst here
        have untouched : ∀ other ∈ others, other.name ≠ field.name := fun other later same =>
          fresh (same ▸ List.mem_map_of_mem later)
        rw [Function.update_self, fill_update_of_not_mem untouched]
        refine congrArg _ (funext fun next => ?_)
        rw [fill_cons, free]
        rfl
      · have later : field ∈ others := List.mem_of_ne_of_mem here member
        have other : first.name ≠ field.name := fun same =>
          fresh (same ▸ List.mem_map_of_mem later)
        have rest := ih namesLater apartLater later
        rw [Function.update_of_ne other]
        have expand : fill surplus look (first :: others) = fun next =>
            (first.set? surplus (look first.name) next).bind (fill surplus look others) := rfl
        rw [expand, funext rest]
        cases look first.name with
        | none => rfl
        | some content =>
            have swap := (apartHere field later).commute surplus draft content document
            simp only [Field.set?]
            rw [← Option.bind_assoc, swap, Option.bind_assoc]

private theorem fill_alike {look other : String → Option Value} {fields others : List (Field δ)}
    (alike : ∀ place : Nat, Option.Rel (fun first second =>
      Field.Alike surplus first second (look first.name) (other second.name))
      fields[place]? others[place]?) (draft : δ) :
    fill surplus look fields draft = fill surplus other others draft := by
  induction fields generalizing others draft with
  | nil =>
      cases others with
      | nil => rfl
      | cons => cases alike 0
  | cons first fields ih =>
      cases others with
      | nil => cases alike 0
      | cons second others =>
          cases alike 0 with
          | some agree =>
              rw [fill_cons, fill_cons, agree.set draft]
              exact congrArg _ (funext fun next => ih (fun place => alike (place + 1)) next)

/-! ### Records -/

namespace Record

/-- The fields have different names and nothing to do with each other, and none is set at first. -/
structure Lawful (record : Record δ α) : Prop where
  names : (record.fields.map Field.name).Nodup
  unset : ∀ field ∈ record.fields, field.isSet record.empty = false
  apart : record.fields.Pairwise Field.Apart

variable {record : Record δ α}

theorem Lawful.apart_of_ne (lawful : record.Lawful) {first second : Field δ}
    (member : first ∈ record.fields) (another : second ∈ record.fields) (different : first ≠ second) :
    Field.Apart first second := by
  have : Std.Symm (Field.Apart (δ := δ)) := ⟨fun _ _ => Field.Apart.symm⟩
  exact lawful.apart.forall member another different

private theorem readEntries_eq_fill (lawful : record.Lawful) {entries : List (String × Value)}
    (distinct : Keyed.Distinct entries) {draft : δ}
    (unset : ∀ field ∈ record.fields, field.name ∈ entries.map (·.1) → field.isSet draft = false) :
    (record.readEntries draft (Entries.ofPairs surplus entries)).toOption =
      (fill surplus (Keyed.get? entries) record.fields draft).bind
        fun full => (record.complete full).toOption := by
  -- a declared key does not come again, so its field is free until then and set from there on
  induction entries generalizing draft with
  | nil =>
      have nothing : Keyed.get? ([] : List (String × Value)) = fun _ => none := rfl
      rw [nothing, fill_none, Entries.ofPairs, readEntries, toOption_mapError]
      rfl
  | cons entry entries ih =>
      obtain ⟨key, document⟩ := entry
      obtain ⟨fresh, distinctLater⟩ := List.nodup_cons.mp distinct
      have absent : Keyed.get? entries key = none := by
        rw [Keyed.get?, Option.map_eq_none_iff, List.find?_eq_none]
        intro other later
        simpa using fun same : other.1 = key => fresh (List.mem_map.mpr ⟨other, later, same⟩)
      rw [get?_cons_eq_update, Entries.ofPairs, readEntries, readKey_ok, ok_bind]
      cases declared : record.fields.find? fun field => field.name == key with
      | none =>
          have undeclared : ∀ field ∈ record.fields, field.name ≠ key := by
            simpa using List.find?_eq_none.mp declared
          simp only [Node.skip_ofValue]
          rw [fill_update_of_not_mem undeclared]
          exact ih distinctLater fun field member later =>
            unset field member (List.mem_cons_of_mem key later)
      | some field =>
          have member : field ∈ record.fields := List.mem_of_find?_eq_some declared
          obtain rfl : field.name = key := by simpa using List.find?_some declared
          have still := unset field member List.mem_cons_self
          simp only [still, Bool.false_eq_true, if_false, toOption_bind, toOption_mapError]
          rw [fill_update_of_mem lawful.names lawful.apart member absent, Option.bind_assoc]
          refine Option.bind_congr fun next set => ?_
          refine ih distinctLater fun other another later => ?_
          have different : field ≠ other := by
            rintro rfl
            exact fresh later
          rw [(lawful.apart_of_ne member another different).keepsSecond draft _ next
            (meaning?_eq_some_iff.mp set)]
          exact unset other another (List.mem_cons_of_mem _ later)

theorem meaning?_object (lawful : record.Lawful) {entries : List (String × Value)}
    (distinct : Keyed.Distinct entries) :
    meaning? record.read surplus (.object entries) =
      (fill surplus (Keyed.get? entries) record.fields record.empty).bind
        fun full => (record.complete full).toOption :=
  readEntries_eq_fill lawful distinct fun field member _ => lawful.unset field member

private theorem readFields_alike {first second : Record δ α}
    (complete : first.complete = second.complete)
    {position : Nat} {fields others : List (Field δ)} {items rearranged : List Value}
    (length : items.length = rearranged.length)
    (alike : ∀ place : Nat, Option.Rel (fun left right =>
      Field.Alike surplus left right items[place]? rearranged[place]?)
      fields[place]? others[place]?) (draft : δ) :
    (first.readFields position fields draft (Items.ofValues surplus items)).toOption =
      (second.readFields position others draft (Items.ofValues surplus rearranged)).toOption := by
  -- on the fields, which may outlast the items
  induction fields generalizing position others items rearranged draft with
  | nil =>
      cases others with
      | cons => cases alike 0
      | nil =>
          cases items with
          | nil =>
              obtain rfl : rearranged = [] := List.length_eq_zero_iff.mp length.symm
              simp only [Items.ofValues, readFields, toOption_mapError, complete]
          | cons item items =>
              cases rearranged with
              | nil => cases length
              | cons => rfl
  | cons left fields ih =>
      cases others with
      | nil => cases alike 0
      | cons right others =>
          have later : ∀ place : Nat, Option.Rel (fun left right =>
              Field.Alike surplus left right items[place + 1]? rearranged[place + 1]?)
              fields[place]? others[place]? := fun place => alike (place + 1)
          cases alike 0 with
          | some agree =>
              cases items with
              | nil =>
                  obtain rfl : rearranged = [] := List.length_eq_zero_iff.mp length.symm
                  simp only [Items.ofValues, readFields, agree.required]
                  cases right.required with
                  | true => rfl
                  | false =>
                      have spent : ([] : List Value).length = ([] : List Value).length := rfl
                      exact ih spent later draft
              | cons item items =>
                  cases rearranged with
                  | nil => cases length
                  | cons other rearranged =>
                      have set : ∀ draft, meaning? (left.read draft) surplus item =
                          meaning? (right.read draft) surplus other := agree.set
                      simp only [Items.ofValues, readFields, toOption_bind, toOption_mapError]
                      refine (congrArg (Option.bind · _) (set draft)).trans ?_
                      exact congrArg _ (funext fun next => ih (Nat.succ.inj length) later next)

end Record

/-! ### Documents of the same form -/

/-- Two objects, two arrays of the same length, or one and the same value. -/
inductive SameForm : Value → Value → Prop
  | refl (document : Value) : SameForm document document
  | array {items rearranged : List Value} : items.length = rearranged.length →
      SameForm (.array items) (.array rearranged)
  | object (entries rearranged : List (String × Value)) :
      SameForm (.object entries) (.object rearranged)

/-- Records with the same fields agree on documents if the fields agree on what these have for
them. -/
theorem Record.read_alike {first second : Record δ α} (lawful : first.Lawful)
    (lawfulSecond : second.Lawful) (empty : first.empty = second.empty)
    (complete : first.complete = second.complete) {document rearranged : Value}
    (form : SameForm document rearranged) (distinct : document.DistinctKeys)
    (distinctRearranged : rearranged.DistinctKeys)
    (alike : ∀ place : Nat, Option.Rel (fun left right => Field.Alike surplus left right
      (field? left.name place document) (field? right.name place rearranged))
      first.fields[place]? second.fields[place]?) :
    meaning? first.read surplus document = meaning? second.read surplus rearranged := by
  have objects : ∀ entries others : List (String × Value), document = .object entries →
      rearranged = .object others →
      meaning? first.read surplus document = meaning? second.read surplus rearranged := by
    rintro entries others rfl rfl
    cases distinct with
    | object keys =>
        cases distinctRearranged with
        | object others =>
            rw [meaning?_object lawful keys, meaning?_object lawfulSecond others, ← empty,
              ← complete]
            exact congrArg (Option.bind · _) (fill_alike alike first.empty)
  have arrays : ∀ items others : List Value, items.length = others.length →
      document = .array items → rearranged = .array others →
      meaning? first.read surplus document = meaning? second.read surplus rearranged := by
    rintro items others length rfl rfl
    rw [meaning?, meaning?, Node.ofValue, Node.ofValue, Record.read, Record.read, ← empty]
    exact readFields_alike complete length alike first.empty
  cases form with
  | object entries others => exact objects entries others rfl rfl
  | array length => exact arrays _ _ length rfl rfl
  | refl =>
      cases document with
      | object entries => exact objects entries entries rfl rfl
      | array items => exact arrays items items rfl rfl rfl
      | null | bool | number | string => rfl

/-! ### The records of declarations and values -/

theorem lawful_containerRecord (inner : Reader ContainerDecl) : (containerRecord inner).Lawful where
  names := by
    change ["name", "service", "client", "operations", "namespaces", "interfaces"].Nodup
    decide
  unset := by simp [containerRecord, ContainerDraft.empty]
  apart := by
    simp only [containerRecord, List.pairwise_cons, List.mem_cons, List.not_mem_nil, or_false,
      forall_eq_or_imp, forall_eq, false_implies, implies_true, List.Pairwise.nil, and_true]
    refine ⟨⟨?_, ?_, ?_, ?_, ?_⟩, ⟨?_, ?_, ?_, ?_⟩, ⟨?_, ?_, ?_⟩, ⟨?_, ?_⟩, ?_⟩ <;>
      exact Field.apart_putting (fun _ _ _ => rfl) (fun _ _ => rfl) fun _ _ => rfl

theorem lawful_enumMemberRecord : enumMemberRecord.Lawful where
  names := by decide
  unset := by simp [enumMemberRecord]
  apart := List.pairwise_pair.mpr
    (Field.apart_putting (fun _ _ _ => rfl) (fun _ _ => rfl) fun _ _ => rfl)

theorem lawful_payload (kind : TypedKind) (name : String) (read : Reader α) :
    (payload kind name read).Lawful where
  names := List.nodup_singleton name
  unset := List.forall_mem_singleton.mpr rfl
  apart := List.pairwise_singleton _ _

theorem lawful_noPayload : noPayload.Lawful where
  names := List.nodup_nil
  unset := List.forall_mem_nil _
  apart := .nil

theorem lawful_propertyRecord : propertyRecord.Lawful where
  names := List.nodup_singleton _
  unset := by simp [propertyRecord]
  apart := List.pairwise_singleton _ _

theorem lawful_modelRecord : modelRecord.Lawful where
  names := by decide
  unset := by simp [modelRecord]
  apart := List.pairwise_pair.mpr
    (Field.apart_putting (fun _ _ _ => rfl) (fun _ _ => rfl) fun _ _ => rfl)

end SdkClients.Decode
