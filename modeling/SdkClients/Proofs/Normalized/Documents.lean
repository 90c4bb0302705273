import SdkClients.Decode
import SdkClients.Proofs.Decode.Alternatives
import SdkClients.Proofs.DistinctNames
import SdkClients.Proofs.Numbers

set_option autoImplicit false

/-!
Plain values and documents.

A plain value is written directly, or made a document value that is printed: both texts are the
same, and a number without a decimal form is null in both. Every document is read as a plain value.
A document repeats no key and all its reals are finite; making a document of what was read gives it
back as long as its integers fit 64 bits. Reading the document of a plain value gives the value back
as long as its numbers have a decimal form.
-/

namespace SdkClients.Normalized

open Decode (firstPlain fromValue readNormalized)

/-! ### Texts -/

private theorem render_toJson_numeric (number : Numeric) :
    number.toJson.render = renderNumeric number := by
  cases number with
  | integer value => rfl
  | real value =>
      by_cases finite : value.isFinite
      · rw [Numeric.toJson, if_pos finite]
        rfl
      · rw [Numeric.toJson, if_neg finite, renderNumeric, Json.renderReal, if_neg finite]
        rfl

/-- Written directly or printed as a document value, a plain value has one text. -/
theorem render_toJson (value : Normalized) : value.toJson.render = value.render := by
  induction value with
  | null | bool | string => rfl
  | number value => exact render_toJson_numeric value
  | array items ih =>
      rw [toJson, Json.Value.render, render, Json.Value.renderItems_eq_map, toJsonList_eq_map,
        renderList_eq_map, List.map_map]
      exact congrArg (Json.enclose "[" "]") (List.map_congr_left ih)
  | object entries ih =>
      rw [toJson, Json.Value.render, render, Json.Value.renderEntries_eq_map,
        toJsonEntries_eq_map, renderEntries_eq_map, List.map_map]
      refine congrArg (Json.enclose "\x7b" "\x7d") (List.map_congr_left fun entry member => ?_)
      exact congrArg (Json.renderString entry.1 ++ ":" ++ ·) (ih entry member)

/-! ### Reading -/

private theorem fromValue_readNormalized (document : Json.Value) :
    fromValue readNormalized document = .ok (ofJson document) := by
  rw [fromValue, readNormalized, Decode.readValue, Json.Node.value_ofValue]
  rfl

private theorem distinctNames_ofJson (document : Json.Value) : (ofJson document).DistinctNames := by
  induction document with
  | null => exact .null
  | bool value => exact .bool value
  | number value => exact .number _
  | string text => exact .string text
  | array items ih =>
      rw [ofJson, ofJsonList_eq_map]
      exact .array (List.forall_mem_map.mpr ih)
  | object entries ih =>
      rw [ofJson, ofJsonEntries_eq_map]
      refine .object (Keyed.distinct_ofList _) fun entry member => ?_
      obtain ⟨source, known, rfl⟩ := List.mem_map.mp (Keyed.ofList_subset _ member)
      exact ih source known

/-- What was read gives the document back when its numbers survive and no key is repeated. -/
private theorem toJson_ofJson {document : Json.Value} (distinct : document.DistinctKeys)
    (kept : ∀ number ∈ document.numbers, (Numeric.ofNumber number).toJson = .number number) :
    (ofJson document).toJson = document := by
  -- Distinctness has one rule for each shape of a document, so the induction can follow it.
  induction distinct with
  | null | bool | string => rfl
  | number value => exact kept value (List.mem_singleton_self value)
  | array _ ih =>
      rw [Json.Value.numbers, Json.Value.numbersOfItems_eq_flatMap, List.forall_mem_flatMap] at kept
      rw [ofJson, toJson, ofJsonList_eq_map, toJsonList_eq_map,
        map_map_eq_self fun item member => ih item member (kept item member)]
  | object names _ ih =>
      rw [Json.Value.numbers, Json.Value.numbersOfEntries_eq_flatMap,
        List.forall_mem_flatMap] at kept
      rw [ofJson, toJson, ofJsonEntries_eq_map, toJsonEntries_eq_map,
        Keyed.ofList_of_distinct (Keyed.distinct_map_iff.mpr names),
        map_map_entries_eq_self fun entry member => ih entry member (kept entry member)]

private theorem ofJson_toJson {value : Normalized} (distinct : value.DistinctNames)
    (finite : ∀ number ∈ value.numbers, number.isFinite) : ofJson value.toJson = value := by
  induction distinct with
  | null | bool | string => rfl
  | number value =>
      have decimal : value.isFinite := finite value (List.mem_singleton_self value)
      rw [toJson, Numeric.toJson_of_isFinite decimal, ofJson, Numeric.ofNumber_toNumber]
  | array _ ih =>
      rw [numbers, numbersOfItems_eq_flatMap, List.forall_mem_flatMap] at finite
      rw [toJson, ofJson, toJsonList_eq_map, ofJsonList_eq_map,
        map_map_eq_self fun item member => ih item member (finite item member)]
  | object names _ ih =>
      rw [numbers, numbersOfEntries_eq_flatMap, List.forall_mem_flatMap] at finite
      rw [toJson, ofJson, toJsonEntries_eq_map, ofJsonEntries_eq_map,
        map_map_entries_eq_self fun entry member => ih entry member (finite entry member),
        Keyed.ofList_of_distinct names]

/-! ### Correspondence -/

/-- Every document is read as a plain value, namely as what the first alternative makes of it. A
document whose numbers are finite and whose integers have 64 bits is what its plain value is written
as, and a plain value with finite numbers is what its document is read as. -/
theorem readNormalized_corresponds :
    (∀ document : Json.Value, ∃ value : Normalized,
      fromValue readNormalized document = .ok value ∧ firstPlain document = some value ∧
        value.DistinctNames) ∧
    (∀ document : Json.Value, document.DistinctKeys →
      (∀ number ∈ document.numbers, number.isFinite) →
      (∀ number ∈ document.numbers, number.isShort) →
        (fromValue readNormalized document).map toJson = .ok document) ∧
    (∀ value : Normalized, value.DistinctNames → (∀ number ∈ value.numbers, number.isFinite) →
      fromValue readNormalized value.toJson = .ok value) := by
  refine ⟨fun document => ?_, fun document distinct finite short => ?_,
    fun value distinct finite => ?_⟩
  · exact ⟨ofJson document, fromValue_readNormalized document, Decode.firstPlain_eq document,
      distinctNames_ofJson document⟩
  · have kept : (ofJson document).toJson = document := toJson_ofJson distinct
      fun number inside => Numeric.toJson_ofNumber (finite number inside) (short number inside)
    rw [fromValue_readNormalized, Except.map, kept]
  · rw [fromValue_readNormalized, ofJson_toJson distinct finite]

/-- The greatest integer of 64 bits, negative zero and a whole real number, among other values. -/
def mixedDocument : Json.Value :=
  .object [("b", .array [.null, .number (.integer 9223372036854775807), .string "b"]),
    ("a", .object [("zero", .number (.real ⟨0x8000000000000000⟩)),
      ("one", .number (.real ⟨0x3FF0000000000000⟩)), ("none", .array [])])]

def mixedValue : Normalized :=
  .object [("b", .array [.null, .number (.integer 9223372036854775807), .string "b"]),
    ("a", .object [("zero", .number (.real ⟨0x8000000000000000⟩)),
      ("one", .number (.real ⟨0x3FF0000000000000⟩)), ("none", .array [])])]

private theorem distinctKeys_mixedDocument : mixedDocument.DistinctKeys := by
  refine .object (by decide) ?_
  simp only [List.forall_mem_cons, List.not_mem_nil, false_implies, implies_true, and_true]
  refine ⟨.array ?_, .object (by decide) ?_⟩
  · simp only [List.forall_mem_cons, List.not_mem_nil, false_implies, implies_true, and_true]
    exact ⟨.null, .number _, .string _⟩
  · simp only [List.forall_mem_cons, List.not_mem_nil, false_implies, implies_true, and_true]
    exact ⟨.number _, .number _, .array (by simp)⟩

theorem readNormalized_corresponds_mixedDocument :
    mixedDocument.DistinctKeys ∧ (∀ number ∈ mixedDocument.numbers, number.isFinite) ∧
      (∀ number ∈ mixedDocument.numbers, number.isShort) ∧
      (fromValue readNormalized mixedDocument).map toJson = .ok mixedDocument ∧
      mixedValue.DistinctNames ∧ (∀ number ∈ mixedValue.numbers, number.isFinite) ∧
      fromValue readNormalized mixedValue.toJson = .ok mixedValue := by
  have documentFinite : ∀ number ∈ mixedDocument.numbers, number.isFinite := by decide
  have documentShort : ∀ number ∈ mixedDocument.numbers, number.isShort := by decide
  have valueFinite : ∀ number ∈ mixedValue.numbers, number.isFinite := by decide
  have valueDistinct : mixedValue.DistinctNames := distinctNames_ofJson mixedDocument
  exact ⟨distinctKeys_mixedDocument, documentFinite, documentShort,
    readNormalized_corresponds.2.1 _ distinctKeys_mixedDocument documentFinite documentShort,
    valueDistinct, valueFinite, readNormalized_corresponds.2.2 _ valueDistinct valueFinite⟩

end SdkClients.Normalized
