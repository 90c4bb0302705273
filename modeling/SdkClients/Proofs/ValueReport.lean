import SdkClients.Proofs.Decode.Fields
import SdkClients.Proofs.Json.Loaded
import SdkClients.ValueReport

set_option autoImplicit false

/-!
The report of a model and the reports of its defaults.

A model is read property by property, and the default of a property is a typed value of its own. So
the report of a model has an entry for each property that declares a default, in the order of the
properties, and the entry is what would be reported for that default if it were the whole document.
-/

namespace SdkClients

open Json (Node Surplus Value)

/-! ### What a document declares -/

/-- The properties in the document of a model. -/
def declaredProperties : Value → List (String × Value)
  | .object entries =>
      match Keyed.get? entries "properties" with
      | some (.object properties) => properties
      | _ => []
  | _ => []

/-- The default in the document of a property. A null stands for no default. -/
def declaredDefault? : Value → Option Value
  | .object fields =>
      match Keyed.get? fields "defaultValue" with
      | some .null => none
      | found => found
  | _ => none

/-- The defaults in the document of a model, under the names of their properties. -/
def declaredDefaults (document : Value) : List (String × Value) :=
  (declaredProperties document).filterMap fun entry =>
    (declaredDefault? entry.2).map fun value => (entry.1, value)

private theorem distinct_declaredProperties {document : Value} (distinct : document.DistinctKeys) :
    Keyed.Distinct (declaredProperties document) ∧
      ∀ entry ∈ declaredProperties document, entry.2.DistinctKeys := by
  have none : Keyed.Distinct ([] : List (String × Value)) ∧
      ∀ entry ∈ ([] : List (String × Value)), entry.2.DistinctKeys :=
    ⟨List.nodup_nil, List.forall_mem_nil _⟩
  cases distinct with
  | null | bool | number | string | array => exact none
  | @object entries keys inner =>
      rw [declaredProperties]
      split
      · next properties stands =>
        obtain ⟨entry, found, same⟩ := Option.map_eq_some_iff.mp stands
        have content := inner entry (List.mem_of_find?_eq_some found)
        rw [same] at content
        cases content with
        | object keys inner => exact ⟨keys, inner⟩
      · exact none

namespace Decode

variable {surplus : Surplus}

private theorem meaning?_readProperty {fields : List (String × Value)}
    (keys : Keyed.Distinct fields) :
    meaning? readProperty surplus (.object fields) =
      match Keyed.get? fields "defaultValue" with
      | none => some ⟨none⟩
      | some document => (meaning? (readOption readTyped) surplus document).map PropertyDecl.mk := by
  have declared : propertyRecord.fields = [.putting "defaultValue" false Option.isSome
      (readOption readTyped) fun _ default => some default] := rfl
  rw [readProperty, Record.meaning?_object lawful_propertyRecord keys, declared, fill_cons]
  change Option.bind (Option.bind (Field.set? _ _ (Keyed.get? fields "defaultValue") none) some) _ = _
  cases Keyed.get? fields "defaultValue" with
  | none => rfl
  | some document =>
      simp only [Field.set?, Field.meaning?_putting]
      cases meaning? (readOption readTyped) surplus document <;> rfl

private theorem complete_modelRecord {draft : ModelDraft} {model : ModelDecl}
    (completed : (modelRecord.complete draft).toOption = some model) :
    model.properties = draft.properties.getD [] := by
  obtain ⟨name, properties⟩ := draft
  cases name with
  | none => cases completed
  | some name =>
      obtain rfl := Option.some.inj completed
      rfl

private theorem readModel_properties {entries : List (String × Value)}
    (keys : Keyed.Distinct entries)
    {model : ModelDecl} (decoded : meaning? readModel surplus (.object entries) = some model) :
    match Keyed.get? entries "properties" with
    | none => model.properties = []
    | some document => meaning? (readMap readProperty) surplus document = some model.properties := by
  have declared : modelRecord.fields =
      [.putting "name" true (fun draft : ModelDraft => draft.name.isSome) readString
          fun draft name => { draft with name := some name },
        .putting "properties" false (fun draft : ModelDraft => draft.properties.isSome)
          (readMap readProperty) fun draft properties =>
            { draft with properties := some properties }] := rfl
  rw [readModel, Record.meaning?_object lawful_modelRecord keys, declared] at decoded
  obtain ⟨full, filled, completed⟩ := Option.bind_eq_some_iff.mp decoded
  obtain ⟨named, nameSet, later⟩ := Option.bind_eq_some_iff.mp filled
  obtain ⟨last, propertiesSet, done⟩ := Option.bind_eq_some_iff.mp later
  obtain rfl : last = full := Option.some.inj done
  have unset : named.properties = none := by
    rcases Field.set?_putting nameSet with ⟨-, rfl⟩ | ⟨_, _, -, -, rfl⟩ <;> rfl
  rcases Field.set?_putting propertiesSet with
    ⟨absent, rfl⟩ | ⟨document, properties, stands, read, rfl⟩
  · have missing : Keyed.get? entries "properties" = none := absent
    rw [missing, complete_modelRecord completed, unset]
    rfl
  · have present : Keyed.get? entries "properties" = some document := stands
    rw [present, complete_modelRecord completed]
    exact read

/-- A property has the default that its document declares. -/
private theorem readProperty_default {property : Value} (distinct : property.DistinctKeys)
    (isObject : ∃ fields, property = .object fields) {declared : PropertyDecl}
    (read : meaning? readProperty surplus property = some declared) :
    Option.Rel (fun document value => meaning? readTyped surplus document = some value)
      (declaredDefault? property) declared.default := by
  obtain ⟨fields, rfl⟩ := isObject
  cases distinct with
  | object keys =>
      rw [meaning?_readProperty keys] at read
      rw [declaredDefault?]
      cases found : Keyed.get? fields "defaultValue" with
      | none =>
          rw [found] at read
          obtain rfl := Option.some.inj read
          exact .none
      | some document =>
          rw [found] at read
          obtain ⟨default, readDefault, rfl⟩ := Option.map_eq_some_iff.mp read
          cases document with
          | null =>
              obtain rfl := Option.some.inj readDefault
              exact .none
          | bool | number | string | array | object =>
              have present := (meaning?_readOption (by simp)).symm.trans readDefault
              obtain ⟨value, made, rfl⟩ := Option.map_eq_some_iff.mp present
              exact .some made

private theorem readModel_declared {document : Value} (distinct : document.DistinctKeys)
    (isObject : ∃ entries, document = .object entries) {model : ModelDecl}
    (decoded : meaning? readModel surplus document = some model) :
    List.Forall₂ (fun entry property => entry.1 = property.1 ∧
        meaning? readProperty surplus entry.2 = some property.2)
      (declaredProperties document) model.properties := by
  obtain ⟨entries, rfl⟩ := isObject
  cases distinct with
  | object keys inner =>
      have properties := readModel_properties keys decoded
      rw [declaredProperties]
      cases found : Keyed.get? entries "properties" with
      | none =>
          rw [found] at properties
          rw [properties]
          exact .nil
      | some content =>
          rw [found] at properties
          have contentDistinct : content.DistinctKeys := by
            obtain ⟨entry, stands, rfl⟩ := Option.map_eq_some_iff.mp found
            exact inner entry (List.mem_of_find?_eq_some stands)
          obtain ⟨listed, rfl, related⟩ :=
            (readMap_eq_ok_iff contentDistinct).mp (meaning?_eq_some_iff.mp properties)
          simpa only [meaning?_eq_some_iff] using related

end Decode

namespace ValueReport

open Decode

private theorem defaults_declared {document : Value} (distinct : document.DistinctKeys)
    (isObject : ∃ entries, document = .object entries)
    (objects : ∀ entry ∈ declaredProperties document, ∃ fields, entry.2 = .object fields)
    {model : ModelDecl} (decoded : fromValue readModel document = .ok model) :
    List.Forall₂ (fun entry default => entry.1 = default.1 ∧
        ∃ value, fromValue readTyped entry.2 = .ok value ∧ default.2 = Normalized.ofTyped value)
      (declaredDefaults document) (Normalized.defaults model) := by
  have inner := (distinct_declaredProperties distinct).2
  have properties := forall₂_of_mem (readModel_declared distinct isObject
    (meaning?_eq_some_iff.mpr decoded))
  refine List.rel_filterMap ?_ properties
  rintro entry property ⟨member, -, same, read⟩
  have default := readProperty_default (inner entry member) (objects entry member) read
  dsimp only
  generalize declaredDefault? entry.2 = declared, property.2.default = known at default ⊢
  cases default with
  | none => exact .none
  | some made => exact .some ⟨same, _, meaning?_eq_some_iff.mp made, rfl⟩

/-- The report of a model in an object is made of the reports of the defaults that it declares. -/
theorem ofDocument_model {source : String} {entries : List (String × Value)} {model : ModelDecl}
    (distinct : (Value.object entries).DistinctKeys)
    (decoded : fromValue readModel (.object entries) = .ok model)
    (objects : ∀ property ∈ declaredProperties (.object entries),
      ∃ fields, property.2 = .object fields) :
    ∃ defaults, ofDocument true ⟨source, .object entries⟩ = .ok (.object defaults) ∧
      List.Forall₂ (fun declared default => declared.1 = default.1 ∧
        ∀ label, ofDocument false ⟨label, declared.2⟩ = .ok default.2)
        (declaredDefaults (.object entries)) defaults := by
  have related := defaults_declared distinct ⟨entries, rfl⟩ objects decoded
  have keys : Keyed.Distinct (Normalized.defaults model) := by
    have declared : Keyed.Distinct (declaredDefaults (.object entries)) :=
      (distinct_declaredProperties distinct).1.filterMap declaredDefault?
    unfold Keyed.Distinct at declared ⊢
    rwa [← map_eq_of_forall₂ (fun _ _ alike => alike.1) related]
  refine ⟨(Normalized.defaults model).map fun default => (default.1, default.2.toJson), ?_, ?_⟩
  · rw [ofDocument, if_pos rfl, ofModel, decoded]
    simp only [Keyed.ofList_of_distinct (Keyed.distinct_map_iff.mpr keys)]
  · rw [List.forall₂_map_right_iff]
    refine related.imp ?_
    rintro entry default ⟨same, value, read, plain⟩
    refine ⟨same, fun label => ?_⟩
    rw [ofDocument, if_neg Bool.false_ne_true, ofTyped, read, plain]

/-- Two properties with defaults, one of them with the kind at the end, and two without. -/
def mixedDefaults : List (String × Value) :=
  [("name", .string "Options"), ("properties", .object [
    ("retries", .object [("defaultValue",
      .object [("value", .number (.integer 3)), ("kind", .string "numeric-literal")])]),
    ("region", .object []),
    ("label", .object [("defaultValue", .null)]),
    ("modes", .object [("doc", .null), ("defaultValue", .object [("kind", .string "array-literal"),
      ("values", .array [.object [("kind", .string "enum-member-reference"),
        ("member", .object [("name", .string "fast")])]])])])])]

theorem ofDocument_model_mixedDefaults :
    (Value.object mixedDefaults).DistinctKeys ∧
      (∃ model, fromValue readModel (.object mixedDefaults) = .ok model) ∧
      (∀ property ∈ declaredProperties (.object mixedDefaults),
        ∃ fields, property.2 = .object fields) ∧
      ∃ defaults, ofDocument true ⟨"", .object mixedDefaults⟩ = .ok (.object defaults) ∧
        List.Forall₂ (fun declared default => declared.1 = default.1 ∧
          ∀ label, ofDocument false ⟨label, declared.2⟩ = .ok default.2)
          (declaredDefaults (.object mixedDefaults)) defaults := by
  have distinct : (Value.object mixedDefaults).DistinctKeys :=
    Value.distinctKeys_collapse (.object mixedDefaults)
  have decoded : fromValue readModel (.object mixedDefaults) = .ok ⟨"Options",
      [("retries", ⟨some (.numeric (.integer 3))⟩), ("region", ⟨none⟩), ("label", ⟨none⟩),
        ("modes", ⟨some (.array [.enumMember ⟨"fast", none⟩])⟩)]⟩ := rfl
  have objects : ∀ property ∈ declaredProperties (.object mixedDefaults),
      ∃ fields, property.2 = .object fields := by
    simp [declaredProperties, mixedDefaults, Keyed.get?]
  exact ⟨distinct, ⟨_, decoded⟩, objects, ofDocument_model distinct decoded objects⟩

example : ofDocument true ⟨"", .object mixedDefaults⟩ = .ok (.object
    [("retries", .number (.integer 3)), ("modes", .array [.string "fast"])]) := rfl

end ValueReport

end SdkClients
