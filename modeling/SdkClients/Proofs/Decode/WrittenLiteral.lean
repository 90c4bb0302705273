import SdkClients.Proofs.Decode.WrittenContainer
import SdkClients.Proofs.DistinctNames
import SdkClients.Proofs.Numbers

set_option autoImplicit false

/-!
The documents of typed values and models are decoded to them.

A written typed value starts with its kind and has at most one other field, which is collected first
and read afterwards. Nested values stand two brackets deeper, so the height of a document is more
than the number of levels that reading it takes. A number that is not finite has no decimal form and
would be read as absent, or not at all; everything else comes back as it was, integers as integers
and reals as reals.
-/

namespace SdkClients.Decode

open Json (Node Entries Surplus Value)

variable {surplus : Surplus}

theorem readValue_ofValue (value : Value) : readValue (Node.ofValue surplus value) = .ok value := by
  rw [readValue, Node.value_ofValue]
  rfl

/-! ### Numbers and members -/

private theorem readNumeric_written {number : Numeric} (finite : number.isFinite) :
    readNumeric (Node.ofValue surplus number.toJson) = .ok number := by
  rw [readNumeric, Numeric.toJson_of_isFinite finite, readValue_ofValue, ok_bind]
  exact congrArg Except.ok number.ofNumber_toNumber

private theorem readEnumValue_written {value : EnumValue}
    (finite : ∀ number, value = .number number → number.isFinite) :
    readOption readEnumValue (Node.ofValue surplus value.toJson) = .ok (some value) := by
  cases value with
  | text text => rfl
  | number number =>
      rw [EnumValue.toJson, Numeric.toJson_of_isFinite (finite number rfl)]
      refine readOption_written nofun ?_
      rw [readEnumValue, readValue_ofValue, ok_bind]
      exact congrArg (Except.ok ∘ EnumValue.number) number.ofNumber_toNumber

private theorem readEnumMember_written {member : EnumMember}
    (finite : ∀ number ∈ member.numbers, number.isFinite) :
    readEnumMember (Node.ofValue surplus member.toJson) = .ok member := by
  obtain ⟨name, value⟩ := member
  rw [readEnumMember, EnumMember.toJson, Node.ofValue, Record.read]
  cases value with
  | none =>
      rw [Option.map_none, Option.toList_none, Entries.ofPairs, Record.readEntries_field rfl rfl rfl]
      rfl
  | some value =>
      have valueRead : readOption readEnumValue (Node.ofValue surplus value.toJson) =
          .ok (some value) := by
        refine readEnumValue_written ?_
        rintro number rfl
        exact finite number (List.mem_singleton_self number)
      rw [Option.map_some, Option.toList_some, Entries.ofPairs, Record.readEntries_field rfl rfl rfl,
        Entries.ofPairs, Record.readEntries_field rfl rfl (map_eq_ok_iff.mpr ⟨_, valueRead, rfl⟩)]
      rfl

/-! ### Typed values -/

theorem ofTag?_tag (kind : TypedKind) : TypedKind.ofTag? kind.tag = some kind := by
  cases kind <;> decide

/-- Once the kind is known, the other fields are collected as they are. -/
theorem collectEntries_ofPairs (numbered : Bool) (kind : TypedKind)
    (fields : List (String × Value)) (others : ∀ field ∈ fields, field.1 ≠ "kind") :
    collectEntries numbered (some kind) (Entries.ofPairs surplus fields) = .ok (kind, fields) := by
  induction fields with
  | nil => rfl
  | cons field fields ih =>
      obtain ⟨other, later⟩ := List.forall_mem_cons.mp others
      simp only [Entries.ofPairs, collectEntries, readKey, Except.mapError, ok_bind, if_neg other,
        readValue_ofValue, ih later]
      rfl

private theorem collect_tagged (numbered : Bool) (kind : TypedKind) (fields : List (String × Value))
    (others : ∀ field ∈ fields, field.1 ≠ "kind") :
    collect numbered (Node.ofValue surplus (TypedValue.tagged kind fields)) =
      .ok (kind, .object fields) := by
  simp only [TypedValue.tagged, Node.ofValue, Entries.ofPairs, collect, collectEntries, readKey,
    Except.mapError, ok_bind, if_true, Option.isSome_none, Bool.false_eq_true, if_false, readKind,
    ofTag?_tag, collectEntries_ofPairs numbered kind fields others]
  rfl

/-- A tagged value is what its kind makes of the other fields. -/
private theorem readTypedWithin_tagged {levels : Nat} {numbered : Bool} {kind : TypedKind}
    {fields : List (String × Value)} {value : TypedValue}
    (others : ∀ field ∈ fields, field.1 ≠ "kind")
    (meaning : readPayload (readTypedWithin levels true) kind
      (Node.ofValue .countWanted (.object fields)) = .ok value) :
    readTypedWithin (levels + 1) numbered
      (Node.ofValue surplus (TypedValue.tagged kind fields)) = .ok value := by
  rw [readTypedWithin, collect_tagged numbered kind fields others, ok_bind]
  exact mapError_eq_ok_iff.mpr meaning

private theorem read_payload {α : Type} {read : Reader α} {document : Value} {meaning : α}
    (kind : TypedKind) (name : String)
    (fieldRead : read (Node.ofValue surplus document) = .ok meaning) :
    (payload kind name read).read (Node.ofValue surplus (.object [(name, document)])) =
      .ok meaning := by
  have declared : (payload kind name read).fields.find? (fun field => field.name == name) =
      some ⟨name, true, Option.isSome, fun _ node => (read node).map some⟩ :=
    List.find?_cons_of_pos (beq_self_eq_true name)
  rw [Node.ofValue, Record.read, Entries.ofPairs,
    Record.readEntries_field declared rfl (map_eq_ok_iff.mpr ⟨_, fieldRead, rfl⟩)]
  rfl

/-- The single other field of a tagged value is read by the reader that its kind names. -/
theorem readTypedWithin_field {α : Type} {read : Reader α} {levels : Nat} {numbered : Bool}
    {kind : TypedKind} {name : String} {document : Value} {meaning : α} {wrap : α → TypedValue}
    (other : name ≠ "kind")
    (named : ∀ node, readPayload (readTypedWithin levels true) kind node =
      ((payload kind name read).read node).map wrap)
    (fieldRead : read (Node.ofValue .countWanted document) = .ok meaning) :
    readTypedWithin (levels + 1) numbered
      (Node.ofValue surplus (TypedValue.tagged kind [(name, document)])) = .ok (wrap meaning) := by
  refine readTypedWithin_tagged (fun field member => ?_) ?_
  · rw [List.mem_singleton.mp member]
    exact other
  · rw [named, read_payload kind name fieldRead]
    rfl

/-- A nested value stands two brackets deeper than the one it belongs to. -/
theorem height_of_mem_array {kind : TypedKind} {name : String} {document : Value}
    {documents : List Value} (member : document ∈ documents) :
    document.height + 2 ≤ (TypedValue.tagged kind [(name, .array documents)]).height := by
  have lower := Value.height_le_of_mem_items member
  simp only [TypedValue.tagged, Value.height, Value.heightOfEntries]
  omega

theorem height_of_mem_object {kind : TypedKind} {name : String} {entry : String × Value}
    {entries : List (String × Value)} (member : entry ∈ entries) :
    entry.2.height + 2 ≤ (TypedValue.tagged kind [(name, .object entries)]).height := by
  have lower := Value.height_le_of_mem_entries member
  simp only [TypedValue.tagged, Value.height, Value.heightOfEntries]
  omega

private theorem height_of_mem_values {value : TypedValue} {values : List TypedValue}
    (member : value ∈ values) :
    value.toJson.height + 2 ≤ (TypedValue.array values).toJson.height := by
  rw [TypedValue.toJson, TypedValue.listToJson_eq_map]
  exact height_of_mem_array (List.mem_map_of_mem member)

private theorem height_of_mem_properties {property : String × TypedValue}
    {properties : List (String × TypedValue)} (member : property ∈ properties) :
    property.2.toJson.height + 2 ≤ (TypedValue.object properties).toJson.height := by
  have listed : (property.1, property.2.toJson) ∈
      properties.map fun entry => (entry.1, entry.2.toJson) :=
    List.mem_map.mpr ⟨property, member, rfl⟩
  rw [TypedValue.toJson, TypedValue.entriesToJson_eq_map]
  exact height_of_mem_object listed

theorem readTypedWithin_written (levels : Nat) (numbered : Bool) {value : TypedValue}
    (distinct : value.DistinctNames) (finite : ∀ number ∈ value.numbers, number.isFinite)
    (enough : value.toJson.height < levels) :
    readTypedWithin levels numbered (Node.ofValue surplus value.toJson) = .ok value := by
  -- Each level of reading uses up the two brackets of a tagged object and its nested list; what
  -- is left bounds the values inside.
  induction levels generalizing surplus numbered value with
  | zero => exact absurd enough (Nat.not_lt_zero _)
  | succ levels ih =>
      cases value with
      | string text =>
          exact readTypedWithin_field (by decide) (fun _ => rfl) (readString_written text)
      | boolean value =>
          exact readTypedWithin_field (by decide) (fun _ => rfl) (readBool_written value)
      | null => exact readTypedWithin_tagged (List.forall_mem_nil _) rfl
      | numeric number =>
          have decimal : number.isFinite := finite number (List.mem_singleton_self number)
          exact readTypedWithin_field (by decide) (fun _ => rfl) (readNumeric_written decimal)
      | enumMember member =>
          exact readTypedWithin_field (by decide) (fun _ => rfl) (readEnumMember_written finite)
      | array values =>
          have inner := TypedValue.distinctNames_array_iff.mp distinct
          rw [TypedValue.numbers, TypedValue.numbersOfList_eq_flatMap,
            List.forall_mem_flatMap] at finite
          have each : ∀ value ∈ values, readTypedWithin levels true
              (Node.ofValue .countWanted value.toJson) = .ok value := by
            intro value member
            have deeper := height_of_mem_values member
            exact ih true (inner value member) (finite value member) (by omega)
          rw [TypedValue.toJson, TypedValue.listToJson_eq_map]
          exact readTypedWithin_field (by decide) (fun _ => rfl) (readList_written each)
      | object properties =>
          obtain ⟨names, inner⟩ := TypedValue.distinctNames_object_iff.mp distinct
          rw [TypedValue.numbers, TypedValue.numbersOfEntries_eq_flatMap,
            List.forall_mem_flatMap] at finite
          have each : ∀ property ∈ properties, readTypedWithin levels true
              (Node.ofValue .countWanted property.2.toJson) = .ok property.2 := by
            intro property member
            have deeper := height_of_mem_properties member
            exact ih true (inner property member) (finite property member) (by omega)
          rw [TypedValue.toJson, TypedValue.entriesToJson_eq_map]
          exact readTypedWithin_field (by decide) (fun _ => rfl) (readMap_written names each)

private theorem readTyped_written {value : TypedValue} (distinct : value.DistinctNames)
    (finite : ∀ number ∈ value.numbers, number.isFinite) :
    readTyped (Node.ofValue surplus value.toJson) = .ok value := by
  rw [readTyped, Node.height_ofValue]
  exact readTypedWithin_written _ false distinct finite (Nat.lt_succ_self _)

/-! ### Models -/

private theorem TypedValue.toJson_ne_null (value : TypedValue) : value.toJson ≠ .null := by
  cases value <;> nofun

private theorem readProperty_written {property : PropertyDecl}
    (distinct : ∀ value ∈ property.default, value.DistinctNames)
    (finite : ∀ value ∈ property.default, ∀ number ∈ value.numbers, number.isFinite) :
    readProperty (Node.ofValue surplus property.toJson) = .ok property := by
  obtain ⟨default⟩ := property
  rw [readProperty, PropertyDecl.toJson, Node.ofValue, Record.read]
  cases default with
  | none => rfl
  | some value =>
      have valueRead : readOption readTyped (Node.ofValue surplus value.toJson) = .ok (some value) :=
        readOption_written (TypedValue.toJson_ne_null value)
          (readTyped_written (distinct value rfl) (finite value rfl))
      rw [Option.map_some, Option.toList_some, Entries.ofPairs,
        Record.readEntries_field rfl rfl (map_eq_ok_iff.mpr ⟨_, valueRead, rfl⟩)]
      rfl

private theorem readModel_written {model : ModelDecl} (distinct : model.DistinctNames)
    (finite : ∀ number ∈ model.numbers, number.isFinite) :
    readModel (Node.ofValue surplus model.toJson) = .ok model := by
  simp only [ModelDecl.numbers, List.forall_mem_flatMap, Option.mem_toList] at finite
  have each : ∀ property ∈ model.properties,
      readProperty (Node.ofValue surplus property.2.toJson) = .ok property.2 := by
    intro property member
    exact readProperty_written (distinct.defaults property member) (finite property member)
  have propertiesRead := readMap_written distinct.properties each
  rw [readModel, ModelDecl.toJson, Node.ofValue, Record.read, Entries.ofPairs,
    Record.readEntries_field rfl rfl rfl, Entries.ofPairs,
    Record.readEntries_field rfl rfl (map_eq_ok_iff.mpr ⟨_, propertiesRead, rfl⟩)]
  rfl

/-! ### All documents -/

/-- Decoding undoes writing: a container always comes back from its document, and so does every typed
value and every model whose numbers are finite. -/
theorem fromValue_undoes_toJson :
    (∀ declaration : ContainerDecl,
      fromValue readContainer declaration.toJson = .ok declaration) ∧
    (∀ value : TypedValue, value.DistinctNames → (∀ number ∈ value.numbers, number.isFinite) →
      fromValue readTyped value.toJson = .ok value) ∧
    (∀ model : ModelDecl, model.DistinctNames → (∀ number ∈ model.numbers, number.isFinite) →
      fromValue readModel model.toJson = .ok model) :=
  ⟨fromValue_toJson, fun _ distinct finite => readTyped_written distinct finite,
    fun _ distinct finite => readModel_written distinct finite⟩

/-- Properties named like fields, members with every kind of value, and a whole real number. -/
def mixedLiteral : TypedValue :=
  .object [("kind", .string "null"),
    ("value", .array [.enumMember ⟨"A", some (.text "1")⟩, .enumMember ⟨"B", none⟩,
      .enumMember ⟨"C", some (.number (.integer 1))⟩, .numeric (.real ⟨0x3FF0000000000000⟩)]),
    ("properties", .object [("kind", .null)])]

def mixedModel : ModelDecl :=
  ⟨"M", [("defaultValue", ⟨some mixedLiteral⟩), ("bare", ⟨none⟩), ("none", ⟨some .null⟩)]⟩

private theorem distinctNames_mixedLiteral : mixedLiteral.DistinctNames := by
  refine .object (by decide) ?_
  simp only [List.forall_mem_cons, List.not_mem_nil, false_implies, implies_true, and_true]
  refine ⟨.string _, .array ?_, .object (by decide) ?_⟩
  · simp only [List.forall_mem_cons, List.not_mem_nil, false_implies, implies_true, and_true]
    exact ⟨.enumMember _, .enumMember _, .enumMember _, .numeric _⟩
  · simp only [List.forall_mem_cons, List.not_mem_nil, false_implies, implies_true, and_true]
    exact .null

private theorem distinctNames_mixedModel : mixedModel.DistinctNames where
  properties := by decide
  defaults := by
    simp only [mixedModel, List.forall_mem_cons, List.not_mem_nil, false_implies, implies_true,
      and_true, Option.mem_def, Option.some.injEq, reduceCtorEq, forall_eq']
    exact ⟨distinctNames_mixedLiteral, trivial, .null⟩

theorem fromValue_undoes_toJson_mixedModel :
    mixedLiteral.DistinctNames ∧ (∀ number ∈ mixedLiteral.numbers, number.isFinite) ∧
      fromValue readTyped mixedLiteral.toJson = .ok mixedLiteral ∧
      mixedModel.DistinctNames ∧ (∀ number ∈ mixedModel.numbers, number.isFinite) ∧
      fromValue readModel mixedModel.toJson = .ok mixedModel := by
  have literalFinite : ∀ number ∈ mixedLiteral.numbers, number.isFinite := by decide
  have modelFinite : ∀ number ∈ mixedModel.numbers, number.isFinite := by decide
  exact ⟨distinctNames_mixedLiteral, literalFinite,
    fromValue_undoes_toJson.2.1 _ distinctNames_mixedLiteral literalFinite,
    distinctNames_mixedModel, modelFinite,
    fromValue_undoes_toJson.2.2 _ distinctNames_mixedModel modelFinite⟩

end SdkClients.Decode
