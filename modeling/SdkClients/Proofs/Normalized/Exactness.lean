import SdkClients.Proofs.Decode.WrittenLiteral
import SdkClients.Proofs.Json.Loaded
import SdkClients.ValueReport

set_option autoImplicit false

/-!
Integers in typed values.

A number stands in a typed value as a literal or as the explicit value of a member, possibly inside
lists and properties. An integer literal is read, decoded and made plain without loss as long as it
is a signed integer of 64 bits and no negative zero. All other integers become reals, and a real is
never printed like an integer.
-/

namespace SdkClients

/-- Where a number stands in the document of a typed value, with the values around it. -/
inductive NumberPlace where
  | literal
  | member (name : String)
  | item (before : List TypedValue) (place : NumberPlace) (after : List TypedValue)
  | property (before : List (String × TypedValue)) (name : String) (place : NumberPlace)
      (after : List (String × TypedValue))

namespace NumberPlace

/-- The document of the typed value with a document in place of the number. -/
def document (hole : Json.Value) : NumberPlace → Json.Value
  | .literal => TypedValue.tagged .numericLiteral [("value", hole)]
  | .member name =>
      TypedValue.tagged .enumMemberReference
        [("member", .object [("name", .string name), ("value", hole)])]
  | .item before place after =>
      TypedValue.tagged .arrayLiteral [("values", .array (before.map TypedValue.toJson ++
        place.document hole :: after.map TypedValue.toJson))]
  | .property before name place after =>
      TypedValue.tagged .objectLiteral [("properties", .object (
        (before.map fun entry => (entry.1, entry.2.toJson)) ++
          (name, place.document hole) :: after.map fun entry => (entry.1, entry.2.toJson)))]

/-- The typed value with a given number. -/
def typed (number : Numeric) : NumberPlace → TypedValue
  | .literal => .numeric number
  | .member name => .enumMember ⟨name, some (.number number)⟩
  | .item before place after => .array (before ++ place.typed number :: after)
  | .property before name place after => .object (before ++ (name, place.typed number) :: after)

/-- The plain value as a document, with a document in place of the number. -/
def plain (hole : Json.Value) : NumberPlace → Json.Value
  | .literal => hole
  | .member _ => hole
  | .item before place after =>
      .array ((before.map fun value => (Normalized.ofTyped value).toJson) ++
        place.plain hole :: after.map fun value => (Normalized.ofTyped value).toJson)
  | .property before name place after =>
      .object ((before.map fun entry => (entry.1, (Normalized.ofTyped entry.2).toJson)) ++
        (name, place.plain hole) ::
          after.map fun entry => (entry.1, (Normalized.ofTyped entry.2).toJson))

private theorem toJson_typed (number : Numeric) (place : NumberPlace) :
    (Normalized.ofTyped (place.typed number)).toJson = place.plain number.toJson := by
  induction place with
  | literal | member => rfl
  | item before place after ih =>
      rw [typed, plain, Normalized.ofTyped, Normalized.toJson, Normalized.ofTypedList_eq_map,
        Normalized.toJsonList_eq_map, List.map_map, List.map_append, List.map_cons, ← ih]
      rfl
  | property before name place after ih =>
      rw [typed, plain, Normalized.ofTyped, Normalized.toJson, Normalized.ofTypedEntries_eq_map,
        Normalized.toJsonEntries_eq_map, List.map_map, List.map_append, List.map_cons, ← ih]
      rfl

/-! ### Decoding -/

/-- The values around the number can be written: no name is given twice, and their numbers have a
decimal form. -/
structure Writable (place : NumberPlace) : Prop where
  distinct : (place.typed (.integer 0)).DistinctNames
  finite : ∀ number ∈ (place.typed (.integer 0)).numbers, number.isFinite

private theorem Writable.item {before after : List TypedValue} {place : NumberPlace}
    (writable : (NumberPlace.item before place after).Writable) :
    place.Writable ∧ ∀ value ∈ before ++ after,
      value.DistinctNames ∧ ∀ number ∈ value.numbers, number.isFinite := by
  obtain ⟨distinct, finite⟩ := writable
  rw [typed, TypedValue.distinctNames_array_iff] at distinct
  rw [typed, TypedValue.numbers, TypedValue.numbersOfList_eq_flatMap,
    List.forall_mem_flatMap] at finite
  have middle : place.typed (.integer 0) ∈ before ++ place.typed (.integer 0) :: after :=
    List.mem_append_right _ List.mem_cons_self
  have around : before ++ after ⊆ before ++ place.typed (.integer 0) :: after :=
    ((List.sublist_cons_self _ after).append_left before).subset
  refine ⟨⟨distinct _ middle, finite _ middle⟩, fun value member => ?_⟩
  exact ⟨distinct value (around member), finite value (around member)⟩

private theorem Writable.property {before after : List (String × TypedValue)} {name : String}
    {place : NumberPlace} (writable : (NumberPlace.property before name place after).Writable) :
    place.Writable ∧ (∀ entry ∈ before ++ after,
      entry.2.DistinctNames ∧ ∀ number ∈ entry.2.numbers, number.isFinite) ∧
      (before.map (·.1) ++ name :: after.map (·.1)).Nodup := by
  obtain ⟨distinct, finite⟩ := writable
  obtain ⟨names, distinct⟩ := TypedValue.distinctNames_object_iff.mp distinct
  rw [typed, TypedValue.numbers, TypedValue.numbersOfEntries_eq_flatMap,
    List.forall_mem_flatMap] at finite
  have middle : (name, place.typed (.integer 0)) ∈
      before ++ (name, place.typed (.integer 0)) :: after :=
    List.mem_append_right _ List.mem_cons_self
  have around : before ++ after ⊆ before ++ (name, place.typed (.integer 0)) :: after :=
    ((List.sublist_cons_self _ after).append_left before).subset
  refine ⟨⟨distinct _ middle, finite _ middle⟩, fun entry member => ?_, ?_⟩
  · exact ⟨distinct entry (around member), finite entry (around member)⟩
  · unfold Keyed.Distinct at names
    rw [List.map_append, List.map_cons] at names
    exact names

private theorem readEnumMember_number {surplus : Json.Surplus} (name : String)
    (number : Json.Number) :
    Decode.readEnumMember (Json.Node.ofValue surplus
      (.object [("name", .string name), ("value", .number number)])) =
        .ok ⟨name, some (.number (.ofNumber number))⟩ := by
  rw [Decode.readEnumMember, Json.Node.ofValue, Decode.Record.read, Json.Entries.ofPairs,
    Decode.Record.readEntries_field rfl rfl rfl, Json.Entries.ofPairs,
    Decode.Record.readEntries_field rfl rfl rfl]
  rfl

private theorem readNumeric_number {surplus : Json.Surplus} (number : Json.Number) :
    Decode.readNumeric (Json.Node.ofValue surplus (.number number)) = .ok (.ofNumber number) :=
  rfl

/-- A list is read when its written items are, and the one that need not be written. -/
private theorem readTypedWithin_item {levels : Nat} {numbered : Bool} {surplus : Json.Surplus}
    {before after : List TypedValue} {document : Json.Value} {value : TypedValue}
    (written : ∀ other ∈ before ++ after, Decode.readTypedWithin levels true
      (Json.Node.ofValue .countWanted other.toJson) = .ok other)
    (read : Decode.readTypedWithin levels true (Json.Node.ofValue .countWanted document) =
      .ok value) :
    Decode.readTypedWithin (levels + 1) numbered (Json.Node.ofValue surplus
        (TypedValue.tagged .arrayLiteral [("values", .array (before.map TypedValue.toJson ++
          document :: after.map TypedValue.toJson))])) =
      .ok (.array (before ++ value :: after)) := by
  let items : List (Json.Value × TypedValue) :=
    before.map (fun other => (other.toJson, other)) ++
      (document, value) :: after.map fun other => (other.toJson, other)
  have documents : items.map Prod.fst =
      before.map TypedValue.toJson ++ document :: after.map TypedValue.toJson := by
    simp [items, Function.comp_def]
  have values : items.map Prod.snd = before ++ value :: after := by
    simp [items, Function.comp_def]
  have each : ∀ item ∈ items, Decode.readTypedWithin levels true
      (Json.Node.ofValue .countWanted item.1) = .ok item.2 := by
    intro item member
    rcases List.mem_append.mp member with first | later
    · obtain ⟨other, listed, rfl⟩ := List.mem_map.mp first
      exact written other (List.mem_append_left _ listed)
    · rcases List.mem_cons.mp later with rfl | last
      · exact read
      · obtain ⟨other, listed, rfl⟩ := List.mem_map.mp last
        exact written other (List.mem_append_right _ listed)
  rw [← documents, ← values]
  exact Decode.readTypedWithin_field (by decide) (fun _ => rfl) (Decode.readList_each Prod.snd each)

private theorem readTypedWithin_property {levels : Nat} {numbered : Bool} {surplus : Json.Surplus}
    {before after : List (String × TypedValue)} {name : String} {document : Json.Value}
    {value : TypedValue} (names : (before.map (·.1) ++ name :: after.map (·.1)).Nodup)
    (written : ∀ other ∈ before ++ after, Decode.readTypedWithin levels true
      (Json.Node.ofValue .countWanted other.2.toJson) = .ok other.2)
    (read : Decode.readTypedWithin levels true (Json.Node.ofValue .countWanted document) =
      .ok value) :
    Decode.readTypedWithin (levels + 1) numbered (Json.Node.ofValue surplus
        (TypedValue.tagged .objectLiteral [("properties", .object (
          (before.map fun other => (other.1, other.2.toJson)) ++
            (name, document) :: after.map fun other => (other.1, other.2.toJson)))])) =
      .ok (.object (before ++ (name, value) :: after)) := by
  let entries : List (String × Json.Value × TypedValue) :=
    before.map (fun other => (other.1, other.2.toJson, other.2)) ++
      (name, document, value) :: after.map fun other => (other.1, other.2.toJson, other.2)
  have documents : entries.map (fun entry => (entry.1, entry.2.1)) =
      (before.map fun other => (other.1, other.2.toJson)) ++
        (name, document) :: after.map fun other => (other.1, other.2.toJson) := by
    simp [entries, Function.comp_def]
  have values : entries.map (fun entry => (entry.1, entry.2.2)) =
      before ++ (name, value) :: after := by
    simp [entries, Function.comp_def]
  have distinct : Keyed.Distinct entries := by
    unfold Keyed.Distinct
    simpa [entries, Function.comp_def] using names
  have each : ∀ entry ∈ entries, Decode.readTypedWithin levels true
      (Json.Node.ofValue .countWanted entry.2.1) = .ok entry.2.2 := by
    intro entry member
    rcases List.mem_append.mp member with first | later
    · obtain ⟨other, listed, rfl⟩ := List.mem_map.mp first
      exact written other (List.mem_append_left _ listed)
    · rcases List.mem_cons.mp later with rfl | last
      · exact read
      · obtain ⟨other, listed, rfl⟩ := List.mem_map.mp last
        exact written other (List.mem_append_right _ listed)
  rw [← documents, ← values]
  exact Decode.readTypedWithin_field (by decide) (fun _ => rfl)
    (Decode.readMap_each Prod.snd distinct each)

private theorem readTypedWithin_document (number : Json.Number) {place : NumberPlace}
    (writable : place.Writable) (surplus : Json.Surplus) (levels : Nat) (numbered : Bool)
    (enough : (place.document (.number number)).height < levels) :
    Decode.readTypedWithin levels numbered
        (Json.Node.ofValue surplus (place.document (.number number))) =
      .ok (place.typed (.ofNumber number)) := by
  -- The values around the number are written ones; on the way to the number, each level of reading
  -- uses up two brackets.
  induction levels generalizing place surplus numbered with
  | zero => exact absurd enough (Nat.not_lt_zero _)
  | succ levels ih =>
      cases place with
      | literal =>
          rw [document, typed]
          exact Decode.readTypedWithin_field (by decide) (fun _ => rfl) (readNumeric_number number)
      | member name =>
          rw [document, typed]
          exact Decode.readTypedWithin_field (by decide) (fun _ => rfl)
            (readEnumMember_number name number)
      | item before place after =>
          obtain ⟨inner, around⟩ := writable.item
          have lower : ∀ {document}, document ∈ before.map TypedValue.toJson ++
              place.document (.number number) :: after.map TypedValue.toJson →
              document.height < levels := by
            intro document member
            have deeper := Nat.lt_of_le_of_lt (Decode.height_of_mem_array member) enough
            omega
          apply readTypedWithin_item
          · intro other listed
            obtain ⟨distinct, finite⟩ := around other listed
            apply Decode.readTypedWithin_written levels true distinct finite
            rcases List.mem_append.mp listed with first | last
            · exact lower (List.mem_append_left _ (List.mem_map_of_mem first))
            · exact lower (List.mem_append_right _
                (List.mem_cons_of_mem _ (List.mem_map_of_mem last)))
          · exact ih inner .countWanted true (lower (List.mem_append_right _ List.mem_cons_self))
      | property before name place after =>
          obtain ⟨inner, around, names⟩ := writable.property
          have lower : ∀ {entry}, entry ∈
              (before.map fun other => (other.1, other.2.toJson)) ++
                (name, place.document (.number number)) ::
                  after.map (fun other => (other.1, other.2.toJson)) →
              entry.2.height < levels := by
            intro entry member
            have deeper := Nat.lt_of_le_of_lt (Decode.height_of_mem_object member) enough
            omega
          apply readTypedWithin_property names
          · intro other listed
            obtain ⟨distinct, finite⟩ := around other listed
            apply Decode.readTypedWithin_written levels true distinct finite
            rcases List.mem_append.mp listed with first | last
            · exact lower (List.mem_append_left _ (List.mem_map.mpr ⟨other, first, rfl⟩))
            · exact lower (List.mem_append_right _
                (List.mem_cons_of_mem _ (List.mem_map.mpr ⟨other, last, rfl⟩)))
          · exact ih inner .countWanted true (lower (List.mem_append_right _ List.mem_cons_self))

private theorem ofTyped_document (source : String) (number : Json.Number) {place : NumberPlace}
    (writable : place.Writable) :
    ValueReport.ofTyped ⟨source, place.document (.number number)⟩ =
      .ok (place.plain (Numeric.ofNumber number).toJson) := by
  have read : Decode.fromValue Decode.readTyped (place.document (.number number)) =
      .ok (place.typed (.ofNumber number)) := by
    rw [Decode.fromValue, Decode.readTyped, Json.Node.height_ofValue]
    exact readTypedWithin_document number writable _ _ _ (Nat.lt_succ_self _)
  unfold ValueReport.ofTyped
  simp only [read, toJson_typed]

end NumberPlace

/-! ### Integer literals -/

namespace Json

/-- An integer literal: digits, possibly behind a minus sign. -/
def integerText (negative : Bool) (magnitude : Nat) : String :=
  (if negative then "-" else "") ++ toString magnitude

/-- The literal of a signed integer of 64 bits that is no negative zero. -/
def IsExact (negative : Bool) (magnitude : Nat) : Prop :=
  if negative then 0 < magnitude ∧ magnitude ≤ 2 ^ 63 else magnitude < 2 ^ 63

instance (negative : Bool) (magnitude : Nat) : Decidable (IsExact negative magnitude) :=
  inferInstanceAs (Decidable (if negative then _ else _))

private theorem toList_integerText (negative : Bool) (magnitude : Nat) :
    (integerText negative magnitude).toList = (Spelling.ofInteger negative magnitude).text := by
  rw [text_ofInteger, integerText, String.toList_append, Nat.toString_eq_ofList_toDigits,
    String.toList_ofList]
  cases negative <;> rfl

private theorem parse_integerText (negative : Bool) (magnitude : Nat) :
    (Value.parse (integerText negative magnitude)).toOption =
      (Spelling.ofInteger negative magnitude).number.map .number := by
  have opens := (Spelling.ofInteger negative magnitude).opens_text
  have reads := readsAs_spelling (.ofInteger negative magnitude)
  rw [← toList_integerText] at opens reads
  rw [parse_of_reads opens reads (Nat.zero_le _), Option.map_map]
  rfl

/-- The value of a literal; the minus sign of a zero is lost. -/
def signedValue (negative : Bool) (magnitude : Nat) : Int :=
  if negative then -magnitude else magnitude

private theorem integerValue_of_isExact {negative : Bool} {magnitude : Nat}
    (exact : IsExact negative magnitude) :
    Numeral.integerValue negative magnitude = .integer (signedValue negative magnitude) := by
  unfold IsExact at exact
  cases negative with
  | false => rfl
  | true => exact if_pos exact

private theorem isShort_of_isExact {negative : Bool} {magnitude : Nat}
    (exact : IsExact negative magnitude) :
    (Number.integer (signedValue negative magnitude)).isShort = true := by
  have bound : Int.pow 2 63 = 2 ^ 63 := rfl
  apply (Numeric.fitsInteger_iff _).mpr
  rw [bound]
  unfold IsExact at exact
  unfold signedValue
  cases negative with
  | false =>
      simp only [Bool.false_eq_true, if_false] at exact ⊢
      omega
  | true =>
      simp only [if_true] at exact ⊢
      omega

private theorem render_signedValue {negative : Bool} {magnitude : Nat}
    (exact : IsExact negative magnitude) :
    (Number.integer (signedValue negative magnitude)).render = integerText negative magnitude := by
  have sign : decide (signedValue negative magnitude < 0) = negative := by
    unfold IsExact at exact
    unfold signedValue
    cases negative with
    | false => exact decide_eq_false (by simp)
    | true =>
        simp only [if_true] at exact ⊢
        exact decide_eq_true (by omega)
  have size : (signedValue negative magnitude).natAbs = magnitude := by
    unfold signedValue
    cases negative with
    | false => rfl
    | true => exact Int.natAbs_neg magnitude
  apply String.toList_inj.mp
  rw [Number.render, toList_toString_int, sign, size, toList_integerText]

private theorem integer_of_isExact {negative : Bool} {magnitude : Nat}
    (exact : IsExact negative magnitude) :
    Value.parse (integerText negative magnitude) =
        .ok (.number (.integer (signedValue negative magnitude))) ∧
      (Numeric.ofNumber (.integer (signedValue negative magnitude))).toJson =
        .number (.integer (signedValue negative magnitude)) := by
  have fits : magnitude < Decimal.significandBound := by
    have bound : Decimal.significandBound = 2 ^ 64 := rfl
    unfold IsExact at exact
    rw [bound]
    split at exact <;> omega
  constructor
  · apply toOption_eq_some_iff.mp
    rw [parse_integerText, Spelling.number_ofInteger_of_lt negative fits,
      integerValue_of_isExact exact]
    rfl
  · exact Numeric.toJson_ofNumber rfl (isShort_of_isExact exact)

private theorem decimal_of_mem_ofInteger {negative : Bool} {magnitude : Nat} {character : Char}
    (member : character ∈ (Spelling.ofInteger negative magnitude).text) :
    character = '-' ∨ character.isDigit = true := by
  rw [text_ofInteger] at member
  rcases List.mem_append.mp member with sign | digit
  · cases negative with
    | false => cases sign
    | true => exact .inl (List.mem_singleton.mp sign)
  · exact .inr (Nat.isDigit_of_mem_toDigits (by decide) (by decide) digit)

/-- A real literal has a point or an exponent mark. -/
private theorem Spelling.IsReal.exists_mark {spelling : Spelling} (real : spelling.IsReal) :
    ∃ mark ∈ spelling.text, mark ≠ '-' ∧ mark.isDigit = false := by
  have unsigned : ∀ character ∈ spelling.fractionText ++ spelling.exponentText,
      character ∈ spelling.text := by
    intro character member
    have inside : character ∈ spelling.unsignedText := List.mem_append_right _ member
    unfold Spelling.text
    split
    · exact List.mem_cons_of_mem _ inside
    · exact inside
  rcases real with fraction | exponent
  · obtain ⟨digits, same⟩ := Option.isSome_iff_exists.mp fraction
    refine ⟨'.', unsigned '.' (List.mem_append_left _ ?_), by decide, rfl⟩
    unfold Spelling.fractionText
    rw [same]
    exact List.mem_cons_self
  · obtain ⟨part, same⟩ := Option.isSome_iff_exists.mp exponent
    refine ⟨'e', unsigned 'e' (List.mem_append_right _ ?_), by decide, rfl⟩
    unfold Spelling.exponentText
    rw [same]
    exact List.mem_cons_self

private theorem render_real_ne {real : Binary64} (finite : real.isFinite = true) (negative : Bool)
    (magnitude : Nat) : (Number.real real).render ≠ integerText negative magnitude := by
  obtain ⟨spelling, isReal, text⟩ := exists_spelling_of_isFinite finite
  intro same
  have texts : spelling.text = (Spelling.ofInteger negative magnitude).text := by
    rw [text, ← toList_integerText, ← same]
    rfl
  obtain ⟨mark, member, noSign, noDigit⟩ := isReal.exists_mark
  rw [texts] at member
  rcases decimal_of_mem_ofInteger member with sign | digit
  · exact noSign sign
  · rw [noDigit] at digit
    cases digit

private theorem large_of_not_isExact {negative : Bool} {magnitude : Nat}
    (inexact : ¬ IsExact negative magnitude) {value : Int}
    (read : (Spelling.ofInteger negative magnitude).number = some (.integer value)) :
    value = magnitude ∧ 2 ^ 63 ≤ magnitude ∧ magnitude < Decimal.significandBound := by
  by_cases fits : magnitude < Decimal.significandBound
  · rw [Spelling.number_ofInteger_of_lt negative fits] at read
    have meaning := Option.some.inj read
    unfold IsExact at inexact
    cases negative with
    | false =>
        cases meaning
        exact ⟨rfl, Nat.le_of_not_lt inexact, fits⟩
    | true =>
        have rounded : Numeral.integerValue true magnitude =
            .real (Binary64.nearest true magnitude 1) := if_neg inexact
        rw [rounded] at meaning
        cases meaning
  · obtain ⟨real, same⟩ := Spelling.number_ofInteger_of_le (Nat.le_of_not_lt fits) read
    cases same

private theorem real_of_not_isExact {negative : Bool} {magnitude : Nat}
    (inexact : ¬ IsExact negative magnitude) {document : Value}
    (read : Value.parse (integerText negative magnitude) = .ok document) :
    ∃ number real, document = .number number ∧ real.isFinite = true ∧
      (Numeric.ofNumber number).toJson = .number (.real real) := by
  have parsed := parse_integerText negative magnitude
  rw [toOption_eq_some_iff.mpr read] at parsed
  obtain ⟨number, found, same⟩ := Option.map_eq_some_iff.mp parsed.symm
  have isRead : number.IsRead := Numeral.isRead_of_value (toOption_eq_some_iff.mp found)
  cases number with
  | real binary => exact ⟨.real binary, binary, same.symm, isRead, if_pos isRead⟩
  | integer value =>
      obtain ⟨rfl, least, fits⟩ := large_of_not_isExact inexact found
      have unfit : ¬ Numeric.fitsInteger magnitude := by
        have bound : Int.pow 2 63 = 2 ^ 63 := rfl
        rw [Numeric.fitsInteger_iff, bound]
        omega
      have finite : (Binary64.ofInt magnitude).isFinite = true :=
        (Decimal.moderate_of_lt _ fits).isFinite
      refine ⟨.integer magnitude, Binary64.ofInt magnitude, same.symm, finite, ?_⟩
      rw [Numeric.ofNumber, if_neg unfit]
      exact if_pos finite

end Json

namespace NumberPlace

/-- An integer literal that is a signed integer of 64 bits and no negative zero is printed as it was
written, wherever it stands; any other one that is read at all is printed as a real, which never
looks like it. -/
theorem integer_exact_iff {place : NumberPlace} (writable : place.Writable) (source : String)
    (negative : Bool) (magnitude : Nat) :
    (Json.IsExact negative magnitude → ∃ value : Int,
      Json.Value.parse (Json.integerText negative magnitude) = .ok (.number (.integer value)) ∧
      ValueReport.ofTyped ⟨source, place.document (.number (.integer value))⟩ =
        .ok (place.plain (.number (.integer value))) ∧
      (Json.Number.integer value).render = Json.integerText negative magnitude) ∧
    (¬ Json.IsExact negative magnitude → ∀ document,
      Json.Value.parse (Json.integerText negative magnitude) = .ok document →
      ∃ real : Binary64, real.isFinite = true ∧
        ValueReport.ofTyped ⟨source, place.document document⟩ =
          .ok (place.plain (.number (.real real))) ∧
        (Json.Number.real real).render ≠ Json.integerText negative magnitude) := by
  constructor
  · intro exact
    obtain ⟨read, kept⟩ := Json.integer_of_isExact exact
    refine ⟨Json.signedValue negative magnitude, read, ?_, Json.render_signedValue exact⟩
    rw [ofTyped_document source _ writable, kept]
  · intro inexact document read
    obtain ⟨number, real, rfl, finite, rounded⟩ := Json.real_of_not_isExact inexact read
    refine ⟨real, finite, ?_, Json.render_real_ne finite negative magnitude⟩
    rw [ofTyped_document source number writable, rounded]

/-- A number deep inside a list, among values of other kinds. -/
def nestedPlace : NumberPlace :=
  .item [.string "1"] (.property [("a", .null)] "b" (.member "B") [("c", .array [])])
    [.numeric (.real ⟨0x3FF0000000000000⟩)]

private theorem writable_nestedPlace : nestedPlace.Writable where
  distinct := by
    refine .array ?_
    simp only [List.cons_append, List.nil_append, List.forall_mem_cons, List.not_mem_nil,
      false_implies, implies_true, and_true]
    refine ⟨.string _, .object (by decide) ?_, .numeric _⟩
    simp only [List.cons_append, List.nil_append, List.forall_mem_cons, List.not_mem_nil,
      false_implies, implies_true, and_true]
    exact ⟨.null, .enumMember _, .array (List.forall_mem_nil _)⟩
  finite := by decide

theorem integer_exact_iff_nestedPlace :
    nestedPlace.Writable ∧ Json.IsExact true 9223372036854775808 ∧
      (∃ value : Int,
        Json.Value.parse (Json.integerText true 9223372036854775808) =
          .ok (.number (.integer value)) ∧
        ValueReport.ofTyped ⟨"in.json", nestedPlace.document (.number (.integer value))⟩ =
          .ok (nestedPlace.plain (.number (.integer value))) ∧
        (Json.Number.integer value).render = Json.integerText true 9223372036854775808) ∧
      ¬ Json.IsExact false 9223372036854775809 ∧
      ∀ document, Json.Value.parse (Json.integerText false 9223372036854775809) = .ok document →
        ∃ real : Binary64, real.isFinite = true ∧
          ValueReport.ofTyped ⟨"in.json", nestedPlace.document document⟩ =
            .ok (nestedPlace.plain (.number (.real real))) ∧
          (Json.Number.real real).render ≠ Json.integerText false 9223372036854775809 := by
  have least : Json.IsExact true 9223372036854775808 := by decide
  have large : ¬ Json.IsExact false 9223372036854775809 := by decide
  exact ⟨writable_nestedPlace, least,
    (integer_exact_iff writable_nestedPlace "in.json" true 9223372036854775808).1 least, large,
    (integer_exact_iff writable_nestedPlace "in.json" false 9223372036854775809).2 large⟩

/-- An integer that fits 64 bits only without a sign is rounded. -/
theorem integer_rounded :
    ¬ ∀ (negative : Bool) (magnitude : Nat) (document : Json.Value),
      Json.Value.parse (Json.integerText negative magnitude) = .ok document →
      ∃ printed, ValueReport.ofTyped ⟨"in.json", NumberPlace.literal.document document⟩ =
          .ok printed ∧ printed.render = Json.integerText negative magnitude := by
  have large : ¬ Json.IsExact false 9223372036854775809 := by decide
  have writable : NumberPlace.literal.Writable := ⟨.numeric _, by decide⟩
  intro exact
  have read := Json.parse_integerText false 9223372036854775809
  rw [Json.Spelling.number_ofInteger_of_lt false (by decide)] at read
  have parsed := toOption_eq_some_iff.mp read
  obtain ⟨printed, made, text⟩ := exact false 9223372036854775809 _ parsed
  obtain ⟨number, real, same, finite, rounded⟩ := Json.real_of_not_isExact large parsed
  rw [same, ofTyped_document "in.json" number writable, rounded] at made
  cases made
  exact Json.render_real_ne finite false 9223372036854775809 text

end NumberPlace

end SdkClients
