import SdkClients.Proofs.Decode.Fields

set_option autoImplicit false

/-!
What values are read as, and when two of them are read alike.

Every value of a document is read for one thing, which also says what the fields are in which further
things are looked for. Two values are read alike if they have the same form and what they have in
these fields is read alike. Nothing is said about how many levels are left for reading: more levels
than a value has make no difference.
-/

namespace SdkClients.Decode

open Json (Node Items Entries Surplus Value)

/-- What a value is read as. -/
inductive Role where
  /-- A value that is taken as it stands. -/
  | plain
  | container
  | typed (numbered : Bool)
  | member
  | property
  | model
  | list (item : Role)
  | map (item : Role)

/-- The kind that a document names. -/
def kind? (numbered : Bool) (document : Value) : Option TypedKind :=
  (tag? document).bind (meaning? (readKind numbered) .countWanted)

/-- The field that a kind asks for. -/
def contentFields : TypedKind → List (String × Role)
  | .stringLiteral | .booleanLiteral | .numericLiteral => [("value", .plain)]
  | .null => []
  | .enumMemberReference => [("member", .member)]
  | .arrayLiteral => [("values", .list (.typed true))]
  | .objectLiteral => [("properties", .map (.typed true))]

namespace Role

/-- The fields that are declared for a document, in the order in which an array has them. -/
def fields (document : Value) : Role → List (String × Role)
  | .container =>
      [("name", .plain), ("service", .plain), ("client", .plain), ("operations", .plain),
        ("namespaces", .list .container), ("interfaces", .list .container)]
  | .typed numbered => ("kind", .plain) :: ((kind? numbered document).map contentFields).getD []
  | .member => [("name", .plain), ("value", .plain)]
  | .property => [("defaultValue", .typed false)]
  | .model => [("name", .plain), ("properties", .map .property)]
  | .plain | .list _ | .map _ => []

/-- Something with fields, where undeclared ones are passed over. -/
def IsRecord : Role → Prop
  | .container | .typed _ | .member | .property | .model => True
  | .plain | .list _ | .map _ => False

def Meaning : Role → Type
  | .plain => Value
  | .container => ContainerDecl
  | .typed _ => TypedValue
  | .member => EnumMember
  | .property => PropertyDecl
  | .model => ModelDecl
  | .list item => List item.Meaning
  | .map item => List (String × item.Meaning)

/-- The reader, with at most the given number of levels where levels are counted. -/
def read (levels : Nat) : (role : Role) → Reader role.Meaning
  | .plain => readValue
  | .container => readContainerWithin levels
  | .typed numbered => readTypedWithin levels numbered
  | .member => readEnumMember
  | .property => readProperty
  | .model => readModel
  | .list item => readList (item.read levels)
  | .map item => readMap (item.read levels)

end Role

/-- Two values are read alike as soon as there are more levels than they have. -/
structure ReadAlike (role : Role) (document rearranged : Value) : Prop where
  absent : document = .null ↔ rearranged = .null
  same : ∀ surplus levels others, document.height < levels → rearranged.height < others →
    meaning? (role.read levels) surplus document = meaning? (role.read others) surplus rearranged

/-- What two documents have for the declared fields of the first is read alike. -/
def FieldsAlike (role : Role) (document rearranged : Value) : Prop :=
  ∀ place name inner, (role.fields document)[place]? = some (name, inner) →
    Option.Rel (ReadAlike inner) (field? name place document) (field? name place rearranged)

variable {role inner : Role} {document rearranged : Value} {surplus : Surplus}

private theorem SameForm.null_iff (form : SameForm document rearranged) :
    document = .null ↔ rearranged = .null := by
  cases form with
  | refl => exact Iff.rfl
  | array | object => exact ⟨nofun, nofun⟩

private theorem eq_of_plain {found other : Option Value}
    (related : Option.Rel (ReadAlike .plain) found other) :
    found = other := by
  cases related with
  | none => rfl
  | @some document rearranged alike =>
      have same := alike.same .countWanted _ _ (Nat.lt_succ_self _) (Nat.lt_succ_self _)
      have whole : ∀ document, meaning? readValue .countWanted document = some document :=
        fun document => meaning?_eq_some_iff.mpr (readValue_ofValue document)
      exact (whole document).symm.trans (same.trans (whole rearranged))

private theorem height_field?_lt {name : String} {place : Nat} {content : Value}
    (stands : field? name place document = some content) : content.height < document.height := by
  cases document with
  | array items =>
      exact Nat.lt_succ_of_le (Value.height_le_of_mem_items (List.mem_of_getElem? stands))
  | object entries =>
      obtain ⟨entry, found, rfl⟩ := Option.map_eq_some_iff.mp stands
      exact Nat.lt_succ_of_le (Value.height_le_of_mem_entries (List.mem_of_find?_eq_some found))
  | null | bool | number | string => cases stands

private theorem map_meaning_field? {name : String} {place levels others : Nat}
    (related : Option.Rel (ReadAlike inner) (field? name place document)
      (field? name place rearranged))
    (bound : document.height ≤ levels) (boundOther : rearranged.height ≤ others) :
    (field? name place document).map (meaning? (inner.read levels) surplus) =
      (field? name place rearranged).map (meaning? (inner.read others) surplus) := by
  cases stands : field? name place document with
  | none =>
      rw [stands] at related
      generalize field? name place rearranged = other at related ⊢
      cases related
      rfl
  | some content =>
      cases standsOther : field? name place rearranged with
      | none =>
          rw [stands, standsOther] at related
          cases related
      | some other =>
          rw [stands, standsOther] at related
          cases related with
          | some alike =>
              have lower := Nat.lt_of_lt_of_le (height_field?_lt stands) bound
              have lowerOther := Nat.lt_of_lt_of_le (height_field?_lt standsOther) boundOther
              exact congrArg some (alike.same surplus levels others lower lowerOther)

private theorem map_plain_field? {α : Type} {read : Reader α} {name : String} {place : Nat}
    (related : Option.Rel (ReadAlike .plain) (field? name place document)
      (field? name place rearranged)) :
    (field? name place document).map (meaning? read surplus) =
      (field? name place rearranged).map (meaning? read surplus) :=
  congrArg _ (eq_of_plain related)

/-- The default of a property is read with as many levels as it has. -/
private theorem map_readOption_field? {found other : Option Value}
    (related : Option.Rel (ReadAlike (.typed false)) found other) :
    found.map (meaning? (readOption readTyped) surplus) =
      other.map (meaning? (readOption readTyped) surplus) := by
  have counted : ∀ document, meaning? readTyped surplus document =
      meaning? (readTypedWithin (document.height + 1) false) surplus document := by
    intro document
    rw [meaning?, readTyped, Node.height_ofValue]
    rfl
  cases related with
  | none => rfl
  | @some document rearranged alike =>
      refine congrArg some ?_
      by_cases absent : document = .null
      · obtain rfl := absent
        rw [alike.absent.mp rfl]
      · rw [meaning?_readOption absent, meaning?_readOption (mt alike.absent.mpr absent),
          counted, counted]
        exact congrArg _ (alike.same surplus _ _ (Nat.lt_succ_self _) (Nat.lt_succ_self _))

/-! ### Lists and maps -/

section

variable {α : Type} {read other : Reader α}

private theorem readItems_alike {items others : List Value}
    (related : List.Forall₂ (fun left right =>
      meaning? read surplus left = meaning? other surplus right) items others) (position : Nat) :
    (readItems read position (Items.ofValues surplus items)).toOption =
      (readItems other position (Items.ofValues surplus others)).toOption := by
  induction related generalizing position with
  | nil => rfl
  | cons first _ ih =>
      rw [meaning?, meaning?] at first
      simp only [Items.ofValues, readItems, toOption_bind, toOption_mapError, first, ih]

private theorem readPairs_alike {entries others : List (String × Value)}
    (related : List.Forall₂ (fun left right => left.1 = right.1 ∧
      meaning? read surplus left.2 = meaning? other surplus right.2) entries others) :
    (readPairs read (Entries.ofPairs surplus entries)).toOption =
      (readPairs other (Entries.ofPairs surplus others)).toOption := by
  induction related with
  | nil => rfl
  | cons first _ ih =>
      obtain ⟨key, first⟩ := first
      rw [meaning?, meaning?] at first
      simp only [Entries.ofPairs, readPairs, readKey_ok, ok_bind, toOption_bind, toOption_mapError,
        key, first, ih]

end

theorem readAlike_list {items others : List Value}
    (related : List.Forall₂ (ReadAlike inner) items others) :
    ReadAlike (.list inner) (.array items) (.array others) where
  absent := ⟨nofun, nofun⟩
  same := by
    intro surplus levels more bound boundMore
    refine readItems_alike ((forall₂_of_mem related).imp ?_) 0
    rintro left right ⟨member, another, alike⟩
    have lower := Nat.lt_of_le_of_lt (Value.height_le_of_mem_items member) (Nat.lt_of_succ_lt bound)
    have lowerMore :=
      Nat.lt_of_le_of_lt (Value.height_le_of_mem_items another) (Nat.lt_of_succ_lt boundMore)
    exact alike.same surplus levels more lower lowerMore

theorem readAlike_map {entries others : List (String × Value)}
    (related : List.Forall₂ (fun left right => left.1 = right.1 ∧ ReadAlike inner left.2 right.2)
      entries others) :
    ReadAlike (.map inner) (.object entries) (.object others) where
  absent := ⟨nofun, nofun⟩
  same := by
    intro surplus levels more bound boundMore
    have alike : (readPairs (inner.read levels) (Entries.ofPairs surplus entries)).toOption =
        (readPairs (inner.read more) (Entries.ofPairs surplus others)).toOption := by
      refine readPairs_alike ((forall₂_of_mem related).imp ?_)
      rintro left right ⟨member, another, key, alike⟩
      have lower :=
        Nat.lt_of_le_of_lt (Value.height_le_of_mem_entries member) (Nat.lt_of_succ_lt bound)
      have lowerMore :=
        Nat.lt_of_le_of_lt (Value.height_le_of_mem_entries another) (Nat.lt_of_succ_lt boundMore)
      exact ⟨key, alike.same surplus levels more lower lowerMore⟩
    change ((readPairs _ _).map Keyed.ofList).toOption = ((readPairs _ _).map Keyed.ofList).toOption
    rw [toOption_map, toOption_map, alike]

/-! ### Typed values -/

/-- A typed value without its kind. -/
def untagged : Value → Value
  | .object entries => .object (entries.filter fun entry => entry.1 ≠ "kind")
  | .array items => .array items.tail
  | document => document

private theorem field?_untagged {name : String} (other : name ≠ "kind") :
    field? name 0 (untagged document) = content? name document := by
  cases document with
  | object entries =>
      change Keyed.get? (entries.filter _) name = Keyed.get? entries name
      induction entries with
      | nil => rfl
      | cons entry entries ih =>
          by_cases tagged : entry.1 = "kind"
          · rw [List.filter_cons_of_neg (by simpa using tagged), ih, Keyed.get?_cons,
              if_neg (tagged ▸ Ne.symm other)]
          · rw [List.filter_cons_of_pos (by simpa using tagged), Keyed.get?_cons, ih,
              Keyed.get?_cons]
  | array items => exact List.getElem?_tail
  | null | bool | number | string => rfl

private theorem distinctKeys_untagged (distinct : document.DistinctKeys) :
    (untagged document).DistinctKeys := by
  cases distinct with
  | object keys inner =>
      refine .object (keys.sublist (List.filter_sublist.map _)) fun entry member => ?_
      exact inner entry (List.mem_of_mem_filter member)
  | array inner => exact .array fun item member => inner item (List.mem_of_mem_tail member)
  | null => exact .null
  | bool value => exact .bool value
  | number value => exact .number value
  | string text => exact .string text

private theorem SameForm.untagged (form : SameForm document rearranged) :
    SameForm (untagged document) (untagged rearranged) := by
  cases form with
  | refl => exact .refl _
  | array length => exact .array (by rw [List.length_tail, List.length_tail, length])
  | object => exact .object _ _

private theorem meaning?_readKind (numbered : Bool) (tag : Value) :
    meaning? (readKind numbered) surplus tag = meaning? (readKind numbered) .countWanted tag := by
  ext kind
  rw [meaning?_eq_some_iff, meaning?_eq_some_iff, readKind_eq_ok_iff, readKind_eq_ok_iff]

private theorem collectEntries_eq {numbered : Bool} {entries : List (String × Value)}
    (distinct : Keyed.Distinct entries) :
    (collectEntries numbered none (Entries.ofPairs surplus entries)).toOption =
      ((Keyed.get? entries "kind").bind (meaning? (readKind numbered) .countWanted)).map fun kind =>
        (kind, entries.filter fun entry => entry.1 ≠ "kind") := by
  induction entries with
  | nil => rfl
  | cons entry entries ih =>
      obtain ⟨fresh, later⟩ := List.nodup_cons.mp distinct
      rw [Entries.ofPairs, collectEntries, readKey_ok, ok_bind, Keyed.get?_cons]
      by_cases tagged : entry.1 = "kind"
      · have others : ∀ other ∈ entries, other.1 ≠ "kind" := fun other member same =>
          fresh (List.mem_map.mpr ⟨other, member, same.trans tagged.symm⟩)
        have kept : (entry :: entries).filter (fun entry => entry.1 ≠ "kind") = entries := by
          rw [List.filter_cons_of_neg (by simpa using tagged), List.filter_eq_self]
          simpa using others
        rw [if_pos tagged, if_pos tagged, kept, Option.bind_some, ← meaning?_readKind,
          Option.map_eq_bind]
        simp only [Option.isSome_none, Bool.false_eq_true, if_false, toOption_bind,
          toOption_mapError, collectEntries_ofPairs _ _ _ others]
        rfl
      · rw [if_neg tagged, if_neg tagged, List.filter_cons_of_pos (by simpa using tagged),
          readValue_ofValue]
        change Except.toOption (collectEntries numbered none _ >>= _) = _
        rw [toOption_bind, ih later, Option.map_eq_bind, Option.map_eq_bind, Option.bind_assoc]
        rfl

private theorem collect_eq {numbered : Bool} (distinct : document.DistinctKeys) :
    (collect numbered (Node.ofValue surplus document)).toOption =
      (kind? numbered document).map fun kind => (kind, untagged document) := by
  cases distinct with
  | object keys _ =>
      rw [Node.ofValue, collect, toOption_bind, collectEntries_eq keys, Option.map_eq_bind,
        Option.map_eq_bind, Option.bind_assoc]
      rfl
  | @array items _ =>
      cases items with
      | nil => rfl
      | cons tag items =>
          have first : kind? numbered (.array (tag :: items)) =
              meaning? (readKind numbered) surplus tag := (meaning?_readKind numbered tag).symm
          rw [Node.ofValue, Items.ofValues, collect, toOption_bind, toOption_mapError, first,
            Items.values_ofValues, Option.map_eq_bind]
          rfl
  | null | bool | number | string => rfl

/-- A typed value is what its kind makes of everything else in it. -/
private theorem meaning?_readTypedWithin {levels : Nat} {numbered : Bool}
    (distinct : document.DistinctKeys) :
    meaning? (readTypedWithin (levels + 1) numbered) surplus document =
      (kind? numbered document).bind fun kind =>
        meaning? (readPayload (readTypedWithin levels true) kind) .countWanted (untagged document) := by
  rw [meaning?, readTypedWithin, toOption_bind, collect_eq distinct, Option.map_eq_bind,
    Option.bind_assoc]
  refine congrArg _ (funext fun kind => ?_)
  exact toOption_mapError

private theorem payload_alike {α β : Type} {read other : Reader α} {kind : TypedKind}
    {name : String}
    {wrap : α → β} (form : SameForm document rearranged) (distinct : document.DistinctKeys)
    (distinctRearranged : rearranged.DistinctKeys)
    (same : (field? name 0 document).map (meaning? read surplus) =
      (field? name 0 rearranged).map (meaning? other surplus)) :
    meaning? (fun node => ((payload kind name read).read node).map wrap) surplus document =
      meaning? (fun node => ((payload kind name other).read node).map wrap) surplus rearranged := by
  refine toOption_map.trans ((congrArg _ ?_).trans toOption_map.symm)
  refine Record.read_alike (lawful_payload kind name read) (lawful_payload kind name other) rfl rfl
    form distinct distinctRearranged fun place => ?_
  match place with
  | 0 => exact .some (Field.alike_putting same)
  | place + 1 => exact .none

private theorem readPayload_alike {levels others : Nat} {kind : TypedKind}
    (form : SameForm document rearranged) (distinct : document.DistinctKeys)
    (distinctRearranged : rearranged.DistinctKeys)
    (same : ∀ name inner, (name, inner) ∈ contentFields kind →
      (field? name 0 document).map (meaning? (inner.read levels) surplus) =
        (field? name 0 rearranged).map (meaning? (inner.read others) surplus)) :
    meaning? (readPayload (readTypedWithin levels true) kind) surplus document =
      meaning? (readPayload (readTypedWithin others true) kind) surplus rearranged := by
  have whole : ∀ {name : String}, (name, .plain) ∈ contentFields kind →
      field? name 0 document = field? name 0 rearranged := by
    intro name declared
    have taken : (field? name 0 document).map (meaning? readValue surplus) =
        (field? name 0 rearranged).map (meaning? readValue surplus) := same name .plain declared
    have every : meaning? readValue surplus = some := funext fun document =>
      meaning?_eq_some_iff.mpr (readValue_ofValue document)
    rw [every] at taken
    exact (Option.map_inj_right fun _ _ => Option.some.inj).mp taken
  cases kind with
  | null =>
      refine toOption_map.trans ((congrArg _ ?_).trans toOption_map.symm)
      exact Record.read_alike lawful_noPayload lawful_noPayload rfl rfl form distinct
        distinctRearranged fun _ => .none
  | stringLiteral | booleanLiteral | numericLiteral =>
      exact payload_alike form distinct distinctRearranged
        (congrArg _ (whole (List.mem_singleton_self _)))
  | enumMemberReference | arrayLiteral | objectLiteral =>
      exact payload_alike form distinct distinctRearranged (same _ _ (List.mem_singleton_self _))

/-! ### Records -/

private theorem readTypedWithin_alike {levels others : Nat} {numbered : Bool}
    (form : SameForm document rearranged) (distinct : document.DistinctKeys)
    (distinctRearranged : rearranged.DistinctKeys)
    (alike : FieldsAlike (.typed numbered) document rearranged)
    (bound : document.height ≤ levels) (boundOther : rearranged.height ≤ others) :
    meaning? (readTypedWithin (levels + 1) numbered) surplus document =
      meaning? (readTypedWithin (others + 1) numbered) surplus rearranged := by
  have sameTag : tag? document = tag? rearranged := eq_of_plain (alike 0 "kind" .plain rfl)
  have sameKind : kind? numbered document = kind? numbered rearranged := by
    rw [kind?, kind?, sameTag]
  rw [meaning?_readTypedWithin distinct, meaning?_readTypedWithin distinctRearranged, ← sameKind]
  refine Option.bind_congr fun kind named => ?_
  refine readPayload_alike form.untagged (distinctKeys_untagged distinct)
    (distinctKeys_untagged distinctRearranged) fun name inner declared => ?_
  -- the content comes after the kind
  have content : contentFields kind = [(name, inner)] ∧ name ≠ "kind" := by
    cases kind with
    | null => cases declared
    | stringLiteral | booleanLiteral | numericLiteral | enumMemberReference | arrayLiteral
    | objectLiteral =>
        obtain ⟨rfl, rfl⟩ := Prod.mk.inj (List.mem_singleton.mp declared)
        exact ⟨rfl, by decide⟩
  have second : (Role.fields document (.typed numbered))[1]? = some (name, inner) := by
    rw [Role.fields, named, Option.map_some, Option.getD_some, content.1]
    rfl
  rw [field?_untagged content.2, field?_untagged content.2]
  exact map_meaning_field? (alike 1 name inner second) bound boundOther

/-- Records of the same form are read alike if their declared fields are. -/
theorem readAlike_of_fields (record : role.IsRecord) (form : SameForm document rearranged)
    (distinct : document.DistinctKeys) (distinctRearranged : rearranged.DistinctKeys)
    (alike : FieldsAlike role document rearranged) : ReadAlike role document rearranged where
  absent := form.null_iff
  same := by
    rintro surplus (_ | levels) (_ | others) bound boundOther
    · cases bound
    · cases bound
    · cases boundOther
    have lower := Nat.le_of_lt_succ bound
    have lowerOther := Nat.le_of_lt_succ boundOther
    cases role with
    | plain | list | map => cases record
    | container =>
        change meaning? (containerRecord (readContainerWithin levels)).read surplus document =
          meaning? (containerRecord (readContainerWithin others)).read surplus rearranged
        refine Record.read_alike (lawful_containerRecord (readContainerWithin levels))
          (lawful_containerRecord (readContainerWithin others)) rfl rfl form distinct
          distinctRearranged fun place => ?_
        match place with
        | 0 => exact .some (Field.alike_putting (map_plain_field? (alike 0 "name" .plain rfl)))
        | 1 => exact .some (Field.alike_putting (map_plain_field? (alike 1 "service" .plain rfl)))
        | 2 => exact .some (Field.alike_putting (map_plain_field? (alike 2 "client" .plain rfl)))
        | 3 => exact .some (Field.alike_putting (map_plain_field? (alike 3 "operations" .plain rfl)))
        | 4 =>
            exact .some (Field.alike_putting
              (map_meaning_field? (alike 4 "namespaces" (.list .container) rfl) lower lowerOther))
        | 5 =>
            exact .some (Field.alike_putting
              (map_meaning_field? (alike 5 "interfaces" (.list .container) rfl) lower lowerOther))
        | place + 6 => exact .none
    | typed numbered =>
        exact readTypedWithin_alike form distinct distinctRearranged alike lower lowerOther
    | member =>
        refine Record.read_alike lawful_enumMemberRecord lawful_enumMemberRecord rfl rfl form
          distinct distinctRearranged fun place => ?_
        match place with
        | 0 => exact .some (Field.alike_putting (map_plain_field? (alike 0 "name" .plain rfl)))
        | 1 => exact .some (Field.alike_putting (map_plain_field? (alike 1 "value" .plain rfl)))
        | place + 2 => exact .none
    | property =>
        refine Record.read_alike lawful_propertyRecord lawful_propertyRecord rfl rfl form
          distinct distinctRearranged fun place => ?_
        match place with
        | 0 =>
            exact .some (Field.alike_putting
              (map_readOption_field? (alike 0 "defaultValue" (.typed false) rfl)))
        | place + 1 => exact .none
    | model =>
        refine Record.read_alike lawful_modelRecord lawful_modelRecord rfl rfl form
          distinct distinctRearranged fun place => ?_
        match place with
        | 0 => exact .some (Field.alike_putting (map_plain_field? (alike 0 "name" .plain rfl)))
        | 1 =>
            exact .some (Field.alike_putting
              (map_meaning_field? (alike 1 "properties" (.map .property) rfl) lower lowerOther))
        | place + 2 => exact .none

theorem readAlike_refl (distinct : document.DistinctKeys) (role : Role) :
    ReadAlike role document document := by
  obtain ⟨height, bound⟩ : ∃ height, document.height = height := ⟨_, rfl⟩
  -- on the height: whatever a reader goes into is lower than the document
  induction height using Nat.strongRecOn generalizing document role with
  | ind height ih =>
      subst bound
      have fields : FieldsAlike role document document := by
        intro place name inner _
        cases stands : field? name place document with
        | none => exact .none
        | some content =>
            exact .some (ih _ (height_field?_lt stands) (distinctKeys_of_field? distinct stands)
              inner rfl)
      cases role with
      | plain => exact ⟨Iff.rfl, fun _ _ _ _ _ => rfl⟩
      | container | typed | member | property | model =>
          exact readAlike_of_fields trivial (.refl document) distinct distinct fields
      | list inner =>
          cases distinct with
          | @array items each =>
              refine readAlike_list (List.forall₂_same.mpr fun item member => ?_)
              exact ih _ (Nat.lt_succ_of_le (Value.height_le_of_mem_items member))
                (each item member) inner rfl
          | null | bool | number | string | object => exact ⟨Iff.rfl, fun _ _ _ _ _ => rfl⟩
      | map inner =>
          cases distinct with
          | @object entries _ each =>
              refine readAlike_map (List.forall₂_same.mpr fun entry member => ⟨rfl, ?_⟩)
              exact ih _ (Nat.lt_succ_of_le (Value.height_le_of_mem_entries member))
                (each entry member) inner rfl
          | null | bool | number | string | array => exact ⟨Iff.rfl, fun _ _ _ _ _ => rfl⟩

theorem ReadAlike.trans {between : Value} (first : ReadAlike role document between)
    (second : ReadAlike role between rearranged) : ReadAlike role document rearranged where
  absent := first.absent.trans second.absent
  same := fun surplus levels others bound boundOther =>
    (first.same surplus levels _ bound (Nat.lt_succ_self _)).trans
      (second.same surplus _ others (Nat.lt_succ_self _) boundOther)

end SdkClients.Decode
