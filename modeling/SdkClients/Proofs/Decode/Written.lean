import SdkClients.Decode.Shape
import SdkClients.Proofs.DistinctKeys
import SdkClients.Proofs.Fallible

set_option autoImplicit false

/-!
Reading what was written.

A reader that gives back each of some values from its document gives back their list and, under
distinct names, their map. A record is read field by field.
-/

namespace SdkClients.Decode

open Json (Node Items Entries Surplus Value)

variable {α β δ : Type} {read : Reader α} {write : α → Value} {surplus : Surplus}
variable {source : β → Value} (meaning : β → α)

theorem readString_written (text : String) :
    readString (Node.ofValue surplus (.string text)) = .ok text := rfl

theorem readBool_written (value : Bool) :
    readBool (Node.ofValue surplus (.bool value)) = .ok value := rfl

private theorem readItems_each {items : List β}
    (each : ∀ item ∈ items, read (Node.ofValue surplus (source item)) = .ok (meaning item))
    (position : Nat) :
    readItems read position (Items.ofValues surplus (items.map source)) =
      .ok (items.map meaning) := by
  induction items generalizing position with
  | nil => rfl
  | cons item items ih =>
      obtain ⟨first, others⟩ := List.forall_mem_cons.mp each
      rw [List.map_cons, Items.ofValues, readItems, first, ih others]
      rfl

private theorem readPairs_each {entries : List (String × β)}
    (each : ∀ entry ∈ entries, read (Node.ofValue surplus (source entry.2)) = .ok (meaning entry.2)) :
    readPairs read (Entries.ofPairs surplus (entries.map fun entry => (entry.1, source entry.2))) =
      .ok (entries.map fun entry => (entry.1, meaning entry.2)) := by
  induction entries with
  | nil => rfl
  | cons entry entries ih =>
      obtain ⟨first, others⟩ := List.forall_mem_cons.mp each
      rw [List.map_cons, Entries.ofPairs, readPairs, first, ih others]
      rfl

theorem readList_each {items : List β}
    (each : ∀ item ∈ items, read (Node.ofValue surplus (source item)) = .ok (meaning item)) :
    readList read (Node.ofValue surplus (.array (items.map source))) = .ok (items.map meaning) := by
  rw [Node.ofValue, readList, readItems_each meaning each]

theorem readMap_each {entries : List (String × β)} (distinct : Keyed.Distinct entries)
    (each : ∀ entry ∈ entries, read (Node.ofValue surplus (source entry.2)) = .ok (meaning entry.2)) :
    readMap read (Node.ofValue surplus
      (.object (entries.map fun entry => (entry.1, source entry.2)))) =
        .ok (entries.map fun entry => (entry.1, meaning entry.2)) := by
  rw [Node.ofValue, readMap, readPairs_each meaning each, Except.map,
    Keyed.ofList_of_distinct (Keyed.distinct_map_iff.mpr distinct)]

theorem readList_written {items : List α}
    (each : ∀ item ∈ items, read (Node.ofValue surplus (write item)) = .ok item) :
    readList read (Node.ofValue surplus (.array (items.map write))) = .ok items :=
  (readList_each id each).trans (congrArg Except.ok (List.map_id items))

theorem readMap_written {entries : List (String × α)} (distinct : Keyed.Distinct entries)
    (each : ∀ entry ∈ entries, read (Node.ofValue surplus (write entry.2)) = .ok entry.2) :
    readMap read (Node.ofValue surplus
      (.object (entries.map fun entry => (entry.1, write entry.2)))) = .ok entries :=
  (readMap_each id distinct each).trans (congrArg Except.ok (List.map_id entries))

/-- Only null stands for an absent value. -/
theorem readOption_written {value : α} {document : Value} (present : document ≠ .null)
    (meaning : read (Node.ofValue surplus document) = .ok value) :
    readOption read (Node.ofValue surplus document) = .ok (some value) := by
  cases document with
  | null => exact absurd rfl present
  | bool | number | string | array | object => exact congrArg (Except.map some) meaning

/-- An entry whose key is declared and not set yet sets its field. -/
theorem Record.readEntries_field {record : Record δ α} {field : Field δ} {draft next : δ}
    {key : String} {mark keyMark : Option Json.Position} {node : Node} {rest : Entries}
    (declared : record.fields.find? (fun field => field.name == key) = some field)
    (fresh : field.isSet draft = false) (meaning : field.read draft node = .ok next) :
    record.readEntries draft (.entry mark (.ok key) keyMark node rest) =
      record.readEntries next rest := by
  rw [Record.readEntries]
  simp only [readKey, Except.mapError, ok_bind, declared, fresh, meaning, Bool.false_eq_true,
    if_false]

end SdkClients.Decode
