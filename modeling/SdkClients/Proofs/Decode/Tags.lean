import Mathlib.Logic.Relation
import SdkClients.Proofs.Decode.Success
import SdkClients.Proofs.Json.Loaded

set_option autoImplicit false

/-!
The tags of a document that is read as a typed value.

A document and its meaning are walked together: from an array literal to its items, from an object
literal to its properties. What is read at a site was read at every site inside it, so the tag at
each of them names the kind that was read there, and items and properties stand as they stood. The
kind of the whole document is named by a string. Inside, where the content was collected before it is
read, a kind can also be named by its position among the kinds. A document with anything else for a
tag somewhere is not read at all.
-/

namespace SdkClients.Decode

open Json (Node Surplus Value)
open Relation (ReflTransGen)

/-- A document with the typed value that it is taken for. -/
structure Site where
  document : Value
  meaning : TypedValue

namespace Site

/-- A site and a site directly inside it, at the same place of the document and of its meaning. -/
inductive Holds : Site → Site → Prop
  | item {document : Value} {items : List Value} {values : List TypedValue} {place : Nat}
      {item : Value} {value : TypedValue} :
      content? "values" document = some (.array items) → items[place]? = some item →
        values[place]? = some value → Holds ⟨document, .array values⟩ ⟨item, value⟩
  | property {document : Value} {entries : List (String × Value)}
      {properties : List (String × TypedValue)} {place : Nat} {entry : String × Value}
      {property : String × TypedValue} :
      content? "properties" document = some (.object entries) → entries[place]? = some entry →
        properties[place]? = some property →
        Holds ⟨document, .object properties⟩ ⟨entry.2, property.2⟩

/-- The tag names the kind of the meaning. -/
def Tagged (numbered : Bool) (site : Site) : Prop :=
  ∃ tag, tag? site.document = some tag ∧ Names site.meaning.kind numbered tag

/-- There are as many items in the document as in the meaning, and the same keys in the same
order. -/
def Aligned : Site → Prop
  | ⟨document, .array values⟩ =>
      ∃ items, content? "values" document = some (.array items) ∧ items.length = values.length
  | ⟨document, .object properties⟩ =>
      ∃ entries, content? "properties" document = some (.object entries) ∧
        entries.map (·.1) = properties.map (·.1)
  | _ => True

/-- The meaning was read from the document. -/
def Read (numbered : Bool) (site : Site) : Prop :=
  site.document.DistinctKeys ∧ ∃ surplus levels,
    readTypedWithin levels numbered (Node.ofValue surplus site.document) = .ok site.meaning

variable {numbered : Bool} {site inner : Site}

private theorem Read.tagged (read : site.Read numbered) : site.Tagged numbered := by
  obtain ⟨-, surplus, levels, success⟩ := read
  exact (readTypedWithin_ok success).1

private theorem Read.aligned (read : site.Read numbered) : site.Aligned := by
  obtain ⟨document, meaning⟩ := site
  obtain ⟨distinct, surplus, levels, success⟩ := read
  cases meaning with
  | array values =>
      obtain ⟨_, items, stands, related⟩ := readTypedWithin_array_ok success
      exact ⟨items, stands, related.length_eq⟩
  | object properties =>
      obtain ⟨_, entries, stands, related⟩ := readTypedWithin_object_ok distinct success
      exact ⟨entries, stands, map_eq_of_forall₂ (fun _ _ alike => alike.1) related⟩
  | string | boolean | null | numeric | enumMember => trivial

/-- What stands inside was read with it. -/
private theorem Read.holds (read : site.Read numbered) (inside : site.Holds inner) :
    inner.Read true := by
  obtain ⟨distinct, surplus, levels, success⟩ := read
  cases inside with
  | @item document items values place item value stands atItem atValue =>
      obtain ⟨fewer, listed, found, related⟩ := readTypedWithin_array_ok success
      obtain ⟨⟩ := stands.symm.trans found
      have itemRead := getElem?_forall₂ related place
      rw [atItem, atValue] at itemRead
      cases itemRead with
      | some itemRead =>
          cases distinctKeys_of_field? distinct stands with
          | array each => exact ⟨each item (List.mem_of_getElem? atItem), _, _, itemRead⟩
  | @property document entries properties place entry property stands atEntry atProperty =>
      obtain ⟨fewer, listed, found, related⟩ := readTypedWithin_object_ok distinct success
      obtain ⟨⟩ := stands.symm.trans found
      have entryRead := getElem?_forall₂ related place
      rw [atEntry, atProperty] at entryRead
      cases entryRead with
      | some entryRead =>
          cases distinctKeys_of_field? distinct stands with
          | object _ each => exact ⟨each entry (List.mem_of_getElem? atEntry), _, _, entryRead.2⟩

private theorem Read.reached (read : site.Read numbered) (inside : ReflTransGen Holds site inner) :
    ∃ counted, inner.Read counted := by
  induction inside with
  | refl => exact ⟨numbered, read⟩
  | tail _ last ih =>
      obtain ⟨_, outer⟩ := ih
      exact ⟨true, outer.holds last⟩

end Site

/-! ### Walking a document alone -/

/-- A document and one directly inside it, as the tags say. -/
inductive Nests : Value → Value → Prop
  | item {document tag item : Value} {items : List Value} : tag? document = some tag →
      Names .arrayLiteral true tag → content? "values" document = some (.array items) →
      item ∈ items → Nests document item
  | property {document tag inner : Value} {entries : List (String × Value)} {key : String} :
      tag? document = some tag → Names .objectLiteral true tag →
      content? "properties" document = some (.object entries) → (key, inner) ∈ entries →
      Nests document inner

/-- The document names no kind. -/
def Untagged (numbered : Bool) (document : Value) : Prop :=
  ∀ tag, tag? document = some tag → ∀ kind, ¬ Names kind numbered tag

private theorem Names.counted {numbered : Bool} {tag : Value} {kind : TypedKind}
    (named : Names kind numbered tag) : Names kind true tag := by
  cases named with
  | tag => exact .tag
  | position known => exact .position known

private theorem Names.unique {tag : Value} {kind other : TypedKind} (named : Names kind true tag)
    (again : Names other true tag) : kind = other := by
  have first : readKind true (Node.ofValue .fewerWanted tag) = .ok kind :=
    readKind_eq_ok_iff.mpr named
  have second : readKind true (Node.ofValue .fewerWanted tag) = .ok other :=
    readKind_eq_ok_iff.mpr again
  exact Except.ok.inj (first.symm.trans second)

namespace Site

variable {numbered : Bool} {site : Site}

private theorem Tagged.kind_eq (tagged : site.Tagged numbered) {tag : Value} {kind : TypedKind}
    (stands : tag? site.document = some tag) (named : Names kind true tag) :
    site.meaning.kind = kind := by
  obtain ⟨found, same, foundNamed⟩ := tagged
  obtain rfl := Option.some.inj (stands.symm.trans same)
  exact foundNamed.counted.unique named

/-- Every document inside one that was read has a meaning there. -/
private theorem Read.exists_holds (read : site.Read numbered) {document : Value}
    (nested : Nests site.document document) :
    ∃ meaning, site.Holds ⟨document, meaning⟩ := by
  have aligned := read.aligned
  obtain ⟨outer, meaning⟩ := site
  cases nested with
  | @item tag item items stands named found member =>
      have kind := read.tagged.kind_eq stands named
      cases meaning with
      | array values =>
          obtain ⟨listed, again, lengths⟩ := aligned
          obtain ⟨⟩ := found.symm.trans again
          obtain ⟨place, bound, rfl⟩ := List.mem_iff_getElem.mp member
          exact ⟨values[place], .item found (List.getElem?_eq_getElem bound)
            (List.getElem?_eq_getElem (lengths ▸ bound))⟩
      | string | boolean | null | numeric | enumMember | object => cases kind
  | @property tag _ entries key stands named found member =>
      have kind := read.tagged.kind_eq stands named
      cases meaning with
      | object properties =>
          obtain ⟨listed, again, names⟩ := aligned
          obtain ⟨⟩ := found.symm.trans again
          have lengths : entries.length = properties.length := by
            simpa using congrArg List.length names
          obtain ⟨place, bound, same⟩ := List.mem_iff_getElem.mp member
          have atEntry : entries[place]? = some (key, document) :=
            (List.getElem?_eq_getElem bound).trans (congrArg some same)
          exact ⟨properties[place].2, .property found atEntry
            (List.getElem?_eq_getElem (lengths ▸ bound))⟩
      | string | boolean | null | numeric | enumMember | array => cases kind

private theorem Read.exists_reached (read : site.Read numbered) {document : Value}
    (nested : ReflTransGen Nests site.document document) :
    ∃ meaning, ReflTransGen Holds site ⟨document, meaning⟩ := by
  induction nested with
  | refl => exact ⟨site.meaning, .refl⟩
  | tail _ last ih =>
      obtain ⟨meaning, walked⟩ := ih
      obtain ⟨_, outer⟩ := read.reached walked
      obtain ⟨inner, holds⟩ := outer.exists_holds last
      exact ⟨inner, walked.tail holds⟩

private theorem Read.nests {inner : Site} (read : site.Read numbered) (inside : site.Holds inner) :
    Nests site.document inner.document := by
  obtain ⟨tag, stands, named⟩ := read.tagged
  cases inside with
  | item found atItem => exact .item stands named.counted found (List.mem_of_getElem? atItem)
  | property found atEntry =>
      exact .property stands named.counted found (List.mem_of_getElem? atEntry)

private theorem Read.nests_reached {inner : Site} (read : site.Read numbered)
    (inside : ReflTransGen Holds site inner) :
    ReflTransGen Nests site.document inner.document := by
  induction inside with
  | refl => exact .refl
  | tail walked last ih =>
      obtain ⟨_, outer⟩ := read.reached walked
      exact ih.tail (outer.nests last)

end Site

/-! ### Documents of typed values -/

/-- What the tags of a document tell of its meaning, at every depth. -/
structure TagsDecide (document : Value) : Prop where
  /-- The tag of the whole document is a string. -/
  whole : ∀ value, fromValue readTyped document = .ok value →
    tag? document = some (.string value.kind.tag)
  /-- Inside, a tag can also be the number of the kind. Items and properties keep their places. -/
  inside : ∀ value, fromValue readTyped document = .ok value →
    ∀ site, ReflTransGen Site.Holds ⟨document, value⟩ site → site.Tagged true ∧ site.Aligned
  /-- Without such numbers all tags are strings. -/
  strings : (∀ place, ReflTransGen Nests document place →
      ∀ number, tag? place ≠ some (.number number)) →
    ∀ value, fromValue readTyped document = .ok value →
      ∀ site, ReflTransGen Site.Holds ⟨document, value⟩ site →
        tag? site.document = some (.string site.meaning.kind.tag)
  /-- A tag that is missing or names no kind makes the whole document unreadable. -/
  rejected : ∀ place, ReflTransGen Nests document place → Untagged true place →
    ∃ failure, fromValue readTyped document = .error failure
  /-- So does a number for the tag of the whole document. -/
  rejectedWhole : Untagged false document →
    ∃ failure, fromValue readTyped document = .error failure

private theorem read_of_fromValue {document : Value} (distinct : document.DistinctKeys)
    {value : TypedValue}
    (success : fromValue readTyped document = .ok value) : Site.Read false ⟨document, value⟩ :=
  ⟨distinct, _, _, success⟩

private theorem Names.eq_of_false {tag : Value} {kind : TypedKind} (named : Names kind false tag) :
    tag = .string kind.tag := by
  cases named
  rfl

private theorem Names.eq_of_not_number {tag : Value} {kind : TypedKind}
    (named : Names kind true tag)
    (other : ∀ number, tag ≠ .number number) : tag = .string kind.tag := by
  cases named with
  | tag => rfl
  | position => exact absurd rfl (other _)

theorem fromValue_readTyped_tags {document : Value} (distinct : document.DistinctKeys) :
    TagsDecide document where
  whole := by
    intro value success
    obtain ⟨tag, stands, named⟩ := (read_of_fromValue distinct success).tagged
    rw [stands, named.eq_of_false]
  inside := by
    intro value success site inside
    obtain ⟨_, read⟩ := (read_of_fromValue distinct success).reached inside
    obtain ⟨tag, stands, named⟩ := read.tagged
    exact ⟨⟨tag, stands, named.counted⟩, read.aligned⟩
  strings := by
    intro unnumbered value success site inside
    have whole := read_of_fromValue distinct success
    obtain ⟨_, read⟩ := whole.reached inside
    obtain ⟨tag, stands, named⟩ := read.tagged
    rw [stands, named.counted.eq_of_not_number]
    rintro number rfl
    exact unnumbered site.document (whole.nests_reached inside) number stands
  rejected := by
    intro place nested untagged
    cases outcome : fromValue readTyped document with
    | error failure => exact ⟨failure, rfl⟩
    | ok value =>
        have whole := read_of_fromValue distinct outcome
        obtain ⟨meaning, inside⟩ := whole.exists_reached nested
        obtain ⟨_, read⟩ := whole.reached inside
        obtain ⟨tag, stands, named⟩ := read.tagged
        exact absurd named.counted (untagged tag stands _)
  rejectedWhole := by
    intro untagged
    cases outcome : fromValue readTyped document with
    | error failure => exact ⟨failure, rfl⟩
    | ok value =>
        obtain ⟨tag, stands, named⟩ := (read_of_fromValue distinct outcome).tagged
        exact absurd named (untagged tag stands _)

/-- An object literal whose property is an array literal in array form, with a number for the tag of
its first item. -/
def mixedTags : Value :=
  .object [("properties", .object [("a", .array [.string "array-literal",
    .array [.object [("kind", .number (.integer 2))],
      .object [("value", .bool true), ("kind", .string "boolean-literal")]]])]),
    ("kind", .string "object-literal")]

def dateLiteral : Value := .object [("kind", .string "date"), ("value", .string "")]

/-- An array literal with an unknown tag two levels down. -/
def unknownTag : Value :=
  .array [.string "array-literal", .array [.object [("kind", .string "object-literal"),
    ("properties", .object [("a", dateLiteral)])]]]

theorem fromValue_readTyped_tags_mixedTags :
    (mixedTags.DistinctKeys ∧ TagsDecide mixedTags ∧
      fromValue readTyped mixedTags = .ok (.object [("a", .array [.null, .boolean true])])) ∧
    unknownTag.DistinctKeys ∧ ∃ failure, fromValue readTyped unknownTag = .error failure := by
  have mixed : mixedTags.DistinctKeys := Value.distinctKeys_collapse mixedTags
  have unknown : unknownTag.DistinctKeys := Value.distinctKeys_collapse unknownTag
  have inArray : Nests unknownTag (.object [("kind", .string "object-literal"),
      ("properties", .object [("a", dateLiteral)])]) :=
    .item rfl .tag rfl (List.mem_singleton_self _)
  have inObject : Nests (.object [("kind", .string "object-literal"),
      ("properties", .object [("a", dateLiteral)])]) dateLiteral :=
    .property rfl .tag rfl (List.mem_singleton_self _)
  have untagged : Untagged true dateLiteral := by
    rintro tag stands kind named
    obtain rfl := Option.some.inj stands
    have read : readKind true (Node.ofValue .fewerWanted (.string "date")) = .ok kind :=
      readKind_eq_ok_iff.mpr named
    cases read
  exact ⟨⟨mixed, fromValue_readTyped_tags mixed, rfl⟩, unknown,
    (fromValue_readTyped_tags unknown).rejected _ (.tail (.single inArray) inObject) untagged⟩

/-- Inside an array literal, a number passes for the tag of a boolean literal. -/
def numberedTag : Value :=
  .object [("kind", .string "array-literal"),
    ("values", .array [.object [("kind", .number (.integer 1)), ("value", .bool false)]])]

theorem readTyped_takesNumberedTag :
    numberedTag.DistinctKeys ∧ ∃ value, fromValue readTyped numberedTag = .ok value ∧
      ¬ ∀ site, ReflTransGen Site.Holds ⟨numberedTag, value⟩ site →
        tag? site.document = some (.string site.meaning.kind.tag) := by
  refine ⟨Value.distinctKeys_collapse numberedTag, .array [.boolean false], rfl, fun strings => ?_⟩
  have inside : Site.Holds ⟨numberedTag, .array [.boolean false]⟩
      ⟨.object [("kind", .number (.integer 1)), ("value", .bool false)], .boolean false⟩ :=
    .item rfl (List.getElem?_cons_zero) (List.getElem?_cons_zero)
  have tagged := strings _ (.single inside)
  cases tagged

end SdkClients.Decode
