import SdkClients.Proofs.Decode.WrittenLiteral
import SdkClients.Proofs.Json.Finished
import SdkClients.Proofs.Pointwise

set_option autoImplicit false

/-!
What is known of a finished value once it has been read.

Everything in a list or a map was read, and every item and entry stands where it stood. A typed value
has its kind under its name or in the first place, and its content under the name that the kind asks
for or in the second place; nothing else of it counts.
-/

namespace SdkClients.Decode

open Json (Node Items Entries Surplus Value)

variable {α : Type} {read : Reader α} {surplus : Surplus}

/-! ### Lists and maps -/

private theorem readItems_eq_ok_iff {items : List Value} {values : List α} {position : Nat} :
    readItems read position (Items.ofValues surplus items) = .ok values ↔
      List.Forall₂ (fun item value => read (Node.ofValue surplus item) = .ok value)
        items values := by
  induction items generalizing values position with
  | nil => rw [Items.ofValues, readItems, List.forall₂_nil_left_iff, Except.ok.injEq, eq_comm]
  | cons item items ih =>
      rw [List.forall₂_cons_left_iff]
      simp only [Items.ofValues, readItems, bind_eq_ok_iff, mapError_eq_ok_iff, pure_eq_ok_iff, ih]
      constructor
      · rintro ⟨value, first, others, later, rfl⟩
        exact ⟨value, others, first, later, rfl⟩
      · rintro ⟨value, others, first, later, rfl⟩
        exact ⟨value, first, others, later, rfl⟩

@[simp] theorem readKey_ok (key : String) : readKey (.ok key) = .ok key := rfl

private theorem readPairs_eq_ok_iff {entries : List (String × Value)} {pairs : List (String × α)} :
    readPairs read (Entries.ofPairs surplus entries) = .ok pairs ↔
      List.Forall₂ (fun entry pair =>
        entry.1 = pair.1 ∧ read (Node.ofValue surplus entry.2) = .ok pair.2) entries pairs := by
  induction entries generalizing pairs with
  | nil => rw [Entries.ofPairs, readPairs, List.forall₂_nil_left_iff, Except.ok.injEq, eq_comm]
  | cons entry entries ih =>
      rw [List.forall₂_cons_left_iff]
      simp only [Entries.ofPairs, readPairs, readKey_ok, ok_bind, bind_eq_ok_iff,
        mapError_eq_ok_iff, pure_eq_ok_iff, ih]
      constructor
      · rintro ⟨value, first, others, later, rfl⟩
        exact ⟨(entry.1, value), others, ⟨rfl, first⟩, later, rfl⟩
      · rintro ⟨⟨name, value⟩, others, ⟨rfl, first⟩, later, rfl⟩
        exact ⟨value, first, others, later, rfl⟩

private theorem readList_eq_ok_iff {document : Value} {values : List α} :
    readList read (Node.ofValue surplus document) = .ok values ↔
      ∃ items, document = .array items ∧
        List.Forall₂ (fun item value => read (Node.ofValue surplus item) = .ok value)
          items values := by
  cases document with
  | array items => simp [Node.ofValue, readList, readItems_eq_ok_iff]
  | null | bool | number | string | object => simp [Node.ofValue, readList]

/-- Under distinct keys a map is what its entries are read as, in their order. -/
theorem readMap_eq_ok_iff {document : Value} (distinct : document.DistinctKeys)
    {pairs : List (String × α)} :
    readMap read (Node.ofValue surplus document) = .ok pairs ↔
      ∃ entries, document = .object entries ∧
        List.Forall₂ (fun entry pair =>
          entry.1 = pair.1 ∧ read (Node.ofValue surplus entry.2) = .ok pair.2) entries pairs := by
  cases distinct with
  | @object entries keys inner =>
      have kept : ∀ found : List (String × α), List.Forall₂ (fun entry pair =>
          entry.1 = pair.1 ∧ read (Node.ofValue surplus entry.2) = .ok pair.2) entries found →
          Keyed.ofList found = found := by
        intro found related
        refine Keyed.ofList_of_distinct ?_
        unfold Keyed.Distinct at keys ⊢
        rw [← map_eq_of_forall₂ (fun _ _ alike => alike.1) related]
        exact keys
      simp only [Node.ofValue, readMap, map_eq_ok_iff, readPairs_eq_ok_iff, Value.object.injEq,
        exists_eq_left']
      constructor
      · rintro ⟨found, related, rfl⟩
        rw [kept found related]
        exact related
      · intro related
        exact ⟨pairs, related, kept pairs related⟩
  | null | bool | number | string | array =>
      constructor
      · intro success
        cases success
      · rintro ⟨entries, absurd, -⟩
        cases absurd

/-! ### The content of a typed value -/

variable {kind : TypedKind} {name : String}

private theorem payload_fields : (payload kind name read).fields =
    [⟨name, true, Option.isSome, fun _ node => (read node).map some⟩] := rfl

private theorem find?_payload (key : String) :
    (payload kind name read).fields.find? (fun field => field.name == key) =
      if name = key then some ⟨name, true, Option.isSome, fun _ node => (read node).map some⟩
      else none := by
  rw [payload_fields, List.find?_singleton]
  simp only [beq_iff_eq]

/-- A content that has been read is not read again. -/
private theorem readEntries_payload_some {entries : List (String × Value)} {known value : α}
    (success : (payload kind name read).readEntries (some known) (Entries.ofPairs surplus entries) =
      .ok value) : value = known := by
  induction entries with
  | nil => exact (Except.ok.inj success).symm
  | cons entry entries ih =>
      rw [Entries.ofPairs, Record.readEntries, readKey_ok, ok_bind, find?_payload] at success
      by_cases same : name = entry.1
      · simp [same] at success
      · simp only [same, if_false, Node.skip_ofValue] at success
        exact ih success

private theorem readEntries_payload_none {entries : List (String × Value)} {value : α}
    (success : (payload kind name read).readEntries none (Entries.ofPairs surplus entries) =
      .ok value) :
    ∃ content, Keyed.get? entries name = some content ∧
      read (Node.ofValue surplus content) = .ok value := by
  induction entries with
  | nil => cases success
  | cons entry entries ih =>
      rw [Entries.ofPairs, Record.readEntries, readKey_ok, ok_bind, find?_payload] at success
      rw [Keyed.get?_cons]
      by_cases same : name = entry.1
      · simp only [same, if_true, Option.isSome_none, Bool.false_eq_true, if_false, bind_eq_ok_iff,
          mapError_eq_ok_iff, map_eq_ok_iff] at success
        obtain ⟨-, ⟨content, made, rfl⟩, later⟩ := success
        have known := readEntries_payload_some later
        exact ⟨entry.2, if_pos same.symm, made.trans (congrArg Except.ok known.symm)⟩
      · simp only [same, if_false, Node.skip_ofValue] at success
        rw [if_neg (Ne.symm same)]
        exact ih success

private theorem readFields_payload {items : List Value} {value : α}
    (success : (payload kind name read).readFields 0 (payload kind name read).fields none
      (Items.ofValues surplus items) = .ok value) :
    ∃ content, items = [content] ∧ read (Node.ofValue surplus content) = .ok value := by
  rw [payload_fields] at success
  cases items with
  | nil => cases success
  | cons content items =>
      rw [Items.ofValues, Record.readFields] at success
      simp only [bind_eq_ok_iff, mapError_eq_ok_iff, map_eq_ok_iff] at success
      obtain ⟨-, ⟨found, made, rfl⟩, later⟩ := success
      cases items with
      | nil =>
          cases later
          exact ⟨content, rfl, made⟩
      | cons => cases later

/-! ### The kind and what stands beside it -/

/-- The document names a kind: by its tag or, where numbers count, by its position. -/
inductive Names (kind : TypedKind) : Bool → Value → Prop
  | tag {numbered : Bool} : Names kind numbered (.string kind.tag)
  | position {place : Nat} : TypedKind.all[place]? = some kind →
      Names kind true (.number (.integer place))

private theorem ofTag?_eq_some_iff {tag : String} {kind : TypedKind} :
    TypedKind.ofTag? tag = some kind ↔ tag = kind.tag := by
  constructor
  · intro known
    unfold TypedKind.ofTag? at known
    have same := List.find?_some known
    exact (beq_iff_eq.mp same).symm
  · rintro rfl
    exact ofTag?_tag kind

theorem readKind_eq_ok_iff {numbered : Bool} {tag : Value} {kind : TypedKind} :
    readKind numbered (Node.ofValue surplus tag) = .ok kind ↔ Names kind numbered tag := by
  constructor
  · intro success
    cases tag with
    | string text =>
        cases known : TypedKind.ofTag? text with
        | none => simp [Node.ofValue, readKind, known] at success
        | some found =>
            have same : found = kind := by simpa [Node.ofValue, readKind, known] using success
            rw [ofTag?_eq_some_iff.mp known, same]
            exact .tag
    | number number =>
        cases number with
        | real => cases success
        | integer number =>
            rw [Node.ofValue, readKind] at success
            by_cases counted : numbered && 0 ≤ number
            · rw [if_pos counted] at success
              obtain ⟨rfl, nonnegative⟩ : numbered = true ∧ 0 ≤ number := by simpa using counted
              obtain ⟨place, rfl⟩ := Int.eq_ofNat_of_zero_le nonnegative
              cases known : TypedKind.all[place]? with
              | none => simp [known] at success
              | some found =>
                  have same : found = kind := by simpa [known] using success
                  exact .position (same ▸ known)
            · simp [counted] at success
    | null | bool | array | object => cases success
  · rintro (_ | known)
    · simp [Node.ofValue, readKind, ofTag?_tag]
    · simp [Node.ofValue, readKind, known]

/-- After the kind, everything is collected as it stands. -/
private theorem collectEntries_known {numbered : Bool} {known kind : TypedKind}
    {entries others : List (String × Value)}
    (success : collectEntries numbered (some known) (Entries.ofPairs surplus entries) =
      .ok (kind, others)) : kind = known ∧ others = entries := by
  induction entries generalizing others with
  | nil =>
      cases success
      exact ⟨rfl, rfl⟩
  | cons entry entries ih =>
      rw [Entries.ofPairs, collectEntries, readKey_ok, ok_bind] at success
      by_cases again : entry.1 = "kind"
      · simp [again] at success
      · simp only [again, if_false, readValue_ofValue, bind_eq_ok_iff, mapError_eq_ok_iff,
          pure_eq_ok_iff, Except.ok.injEq, Prod.mk.injEq] at success
        obtain ⟨value, rfl, ⟨found, rest⟩, later, rfl, rfl⟩ := success
        obtain ⟨rfl, rfl⟩ := ih later
        exact ⟨rfl, rfl⟩

private theorem collectEntries_unknown {numbered : Bool} {kind : TypedKind}
    {entries others : List (String × Value)}
    (success : collectEntries numbered none (Entries.ofPairs surplus entries) =
      .ok (kind, others)) :
    ∃ tag, Keyed.get? entries "kind" = some tag ∧ Names kind numbered tag ∧
      ∀ name, name ≠ "kind" → Keyed.get? others name = Keyed.get? entries name := by
  induction entries generalizing others with
  | nil => cases success
  | cons entry entries ih =>
      rw [Entries.ofPairs, collectEntries, readKey_ok, ok_bind] at success
      by_cases first : entry.1 = "kind"
      · simp only [first, if_true, Option.isSome_none, Bool.false_eq_true, if_false,
          bind_eq_ok_iff, mapError_eq_ok_iff, readKind_eq_ok_iff] at success
        obtain ⟨found, named, later⟩ := success
        obtain ⟨rfl, rfl⟩ := collectEntries_known later
        refine ⟨entry.2, by rw [Keyed.get?_cons, if_pos first], named, fun name other => ?_⟩
        rw [Keyed.get?_cons, first, if_neg (Ne.symm other)]
      · simp only [first, if_false, readValue_ofValue, bind_eq_ok_iff, mapError_eq_ok_iff,
          pure_eq_ok_iff, Except.ok.injEq, Prod.mk.injEq] at success
        obtain ⟨value, rfl, ⟨found, rest⟩, later, rfl, rfl⟩ := success
        obtain ⟨tag, stands, named, alike⟩ := ih later
        refine ⟨tag, by rw [Keyed.get?_cons, if_neg first, stands], named, fun name other => ?_⟩
        rw [Keyed.get?_cons, Keyed.get?_cons, alike name other]

/-! ### Typed values -/

/-- A field of a record: in an object it has a name, in an array a position. -/
def field? (name : String) (position : Nat) : Value → Option Value
  | .object entries => Keyed.get? entries name
  | .array items => items[position]?
  | _ => none

/-- What a document has for its kind. -/
def tag? (document : Value) : Option Value := field? "kind" 0 document

/-- What a document has for the field that its kind asks for. -/
def content? (name : String) (document : Value) : Option Value := field? name 1 document

private theorem collect_ok {numbered : Bool} {document others : Value}
    (success : collect numbered (Node.ofValue surplus document) = .ok (kind, others)) :
    (∃ tag, tag? document = some tag ∧ Names kind numbered tag) ∧
      ∀ name, name ≠ "kind" → field? name 0 others = content? name document := by
  cases document with
  | object entries =>
      rw [Node.ofValue, collect] at success
      simp only [bind_eq_ok_iff, pure_eq_ok_iff, Prod.mk.injEq] at success
      obtain ⟨⟨found, rest⟩, collected, rfl, rfl⟩ := success
      obtain ⟨tag, stands, named, alike⟩ := collectEntries_unknown collected
      exact ⟨⟨tag, stands, named⟩, alike⟩
  | array items =>
      cases items with
      | nil => cases success
      | cons tag items =>
          rw [Node.ofValue, Items.ofValues, collect] at success
          simp only [bind_eq_ok_iff, mapError_eq_ok_iff, readKind_eq_ok_iff, pure_eq_ok_iff,
            Items.values_ofValues, Except.ok.injEq, Prod.mk.injEq] at success
          obtain ⟨found, named, rest, rfl, rfl, rfl⟩ := success
          exact ⟨⟨tag, rfl, named⟩, fun name _ => (List.getElem?_cons_succ).symm⟩
  | null | bool | number | string => cases success

private theorem payload_ok {others : Value} {value : α}
    (success : (payload kind name read).read (Node.ofValue surplus others) = .ok value) :
    ∃ content, field? name 0 others = some content ∧
      read (Node.ofValue surplus content) = .ok value := by
  cases others with
  | object entries => exact readEntries_payload_none success
  | array items =>
      obtain ⟨content, rfl, made⟩ := readFields_payload success
      exact ⟨content, rfl, made⟩
  | null | bool | number | string => cases success

private theorem readPayload_kind {inner : Reader TypedValue} {node : Node} {value : TypedValue}
    (success : readPayload inner kind node = .ok value) : value.kind = kind := by
  cases kind <;>
    obtain ⟨content, -, rfl⟩ := map_eq_ok_iff.mp success <;>
    rfl

theorem readTypedWithin_ok {levels : Nat} {numbered : Bool} {document : Value} {value : TypedValue}
    (success : readTypedWithin levels numbered (Node.ofValue surplus document) = .ok value) :
    (∃ tag, tag? document = some tag ∧ Names value.kind numbered tag) ∧
      ∃ fewer others, (∀ name, name ≠ "kind" → field? name 0 others = content? name document) ∧
        readPayload (readTypedWithin fewer true) value.kind (Node.ofValue .countWanted others) =
          .ok value := by
  cases levels with
  | zero => cases success
  | succ fewer =>
      rw [readTypedWithin] at success
      simp only [bind_eq_ok_iff, mapError_eq_ok_iff] at success
      obtain ⟨⟨kind, others⟩, collected, made⟩ := success
      obtain rfl := readPayload_kind made
      obtain ⟨named, alike⟩ := collect_ok collected
      exact ⟨named, fewer, others, alike, made⟩

theorem readTypedWithin_array_ok {levels : Nat} {numbered : Bool} {document : Value}
    {values : List TypedValue}
    (success : readTypedWithin levels numbered (Node.ofValue surplus document) =
      .ok (.array values)) :
    ∃ fewer items, content? "values" document = some (.array items) ∧
      List.Forall₂ (fun item value =>
        readTypedWithin fewer true (Node.ofValue .countWanted item) = .ok value) items values := by
  obtain ⟨-, fewer, others, alike, made⟩ := readTypedWithin_ok success
  obtain ⟨_, contentRead, ⟨⟩⟩ := map_eq_ok_iff.mp made
  obtain ⟨content, stands, listed⟩ := payload_ok contentRead
  obtain ⟨items, rfl, related⟩ := readList_eq_ok_iff.mp listed
  exact ⟨fewer, items, (alike "values" (by decide)).symm.trans stands, related⟩

theorem distinctKeys_of_field? {document : Value} (distinct : document.DistinctKeys)
    {position : Nat} {content : Value} (stands : field? name position document = some content) :
    content.DistinctKeys := by
  cases distinct with
  | array inner => exact inner content (List.mem_of_getElem? stands)
  | object _ inner =>
      obtain ⟨entry, found, rfl⟩ := Option.map_eq_some_iff.mp stands
      exact inner entry (List.mem_of_find?_eq_some found)
  | null | bool | number | string => cases stands

theorem readTypedWithin_object_ok {levels : Nat} {numbered : Bool} {document : Value}
    (distinct : document.DistinctKeys) {properties : List (String × TypedValue)}
    (success : readTypedWithin levels numbered (Node.ofValue surplus document) =
      .ok (.object properties)) :
    ∃ fewer entries, content? "properties" document = some (.object entries) ∧
      List.Forall₂ (fun entry property => entry.1 = property.1 ∧
        readTypedWithin fewer true (Node.ofValue .countWanted entry.2) = .ok property.2)
          entries properties := by
  obtain ⟨-, fewer, others, alike, made⟩ := readTypedWithin_ok success
  obtain ⟨_, contentRead, ⟨⟩⟩ := map_eq_ok_iff.mp made
  obtain ⟨content, stands, mapped⟩ := payload_ok contentRead
  have found := (alike "properties" (by decide)).symm.trans stands
  have contentDistinct := distinctKeys_of_field? distinct found
  obtain ⟨entries, rfl, related⟩ := (readMap_eq_ok_iff contentDistinct).mp mapped
  exact ⟨fewer, entries, found, related⟩

end SdkClients.Decode
