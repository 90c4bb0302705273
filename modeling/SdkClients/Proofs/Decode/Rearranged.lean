import Mathlib.Logic.Relation
import SdkClients.Proofs.Decode.Roles
import SdkClients.Proofs.Json.Loaded

set_option autoImplicit false

/-!
Documents in which the order of fields and undeclared entries have changed.

A record that is written as an object has its fields in any order, with entries under other keys among
them, and this goes for the records inside it as well, down to every depth. Lists and maps keep their
order. Whatever is changed in this way, a container, a typed value or a model is read from the
document as before. The kind of a typed value is one of its fields, so it can stand behind the field that
it asks for.
-/

namespace SdkClients

open Json (Node Value)

namespace Decode

open Relation (ReflTransGen)

/-- A change that readers do not see. -/
inductive Change : Role → Value → Value → Prop
  | reorder {role : Role} {entries others : List (String × Value)} : role.IsRecord →
      entries.Perm others → Change role (.object entries) (.object others)
  | add {role : Role} {before after : List (String × Value)} {key : String} {value : Value} :
      role.IsRecord → key ∉ (role.fields (.object (before ++ after))).map (·.1) →
      key ∉ (before ++ after).map (·.1) → value.DistinctKeys →
      Change role (.object (before ++ after)) (.object (before ++ (key, value) :: after))
  /-- Inside a field of an object. -/
  | field {role inner : Role} {before after : List (String × Value)} {key : String}
      {value changed : Value} :
      (key, inner) ∈ role.fields (.object (before ++ (key, value) :: after)) →
      Change inner value changed →
      Change role (.object (before ++ (key, value) :: after))
        (.object (before ++ (key, changed) :: after))
  /-- Inside a field of a record that is written as an array. -/
  | place {role inner : Role} {before after : List Value} {name : String} {value changed : Value} :
      (role.fields (.array (before ++ value :: after)))[before.length]? = some (name, inner) →
      Change inner value changed →
      Change role (.array (before ++ value :: after)) (.array (before ++ changed :: after))
  | item {inner : Role} {before after : List Value} {value changed : Value} :
      Change inner value changed →
      Change (.list inner) (.array (before ++ value :: after)) (.array (before ++ changed :: after))
  | entry {inner : Role} {before after : List (String × Value)} {key : String}
      {value changed : Value} : Change inner value changed →
      Change (.map inner) (.object (before ++ (key, value) :: after))
        (.object (before ++ (key, changed) :: after))

/-- Any number of such changes. -/
def Rearranged (role : Role) : Value → Value → Prop := ReflTransGen (Change role)

variable {role inner : Role} {document rearranged : Value}

private theorem distinct_fields (role : Role) (document : Value) :
    Keyed.Distinct (role.fields document) := by
  cases role with
  | plain | list | map => exact List.nodup_nil
  | container =>
      change ["name", "service", "client", "operations", "namespaces", "interfaces"].Nodup
      decide
  | member =>
      change ["name", "value"].Nodup
      decide
  | property => exact List.nodup_singleton _
  | model =>
      change ["name", "properties"].Nodup
      decide
  | typed numbered =>
      rw [Role.fields]
      cases kind? numbered document with
      | none => exact List.nodup_singleton _
      | some kind => cases kind <;> decide

private theorem isRecord_of_mem {field : String × Role} (member : field ∈ role.fields document) :
    role.IsRecord := by
  cases role with
  | plain | list | map => cases member
  | container | typed | member | property | model => trivial

private theorem fieldAlike_of_eq {name : String} {place : Nat} (distinct : document.DistinctKeys)
    (same : field? name place document = field? name place rearranged) :
    Option.Rel (ReadAlike inner) (field? name place document) (field? name place rearranged) := by
  rw [← same]
  cases stands : field? name place document with
  | none => exact .none
  | some content => exact .some (readAlike_refl (distinctKeys_of_field? distinct stands) inner)

/-! ### One change -/

section Replaced

variable {before after : List (String × Value)} {front back : List Value} {key : String}
variable {value changed : Value}

private theorem distinctKeys_entry
    (distinct : (Value.object (before ++ (key, value) :: after)).DistinctKeys) :
    key ∉ before.map (·.1) ∧ value.DistinctKeys := by
  cases distinct with
  | object keys each =>
      have fresh := (Keyed.distinct_middle_iff.mp keys).1
      rw [List.map_append, List.mem_append, not_or] at fresh
      exact ⟨fresh.1, each (key, value) List.mem_append_cons_self⟩

private theorem distinctKeys_item (distinct : (Value.array (front ++ value :: back)).DistinctKeys) :
    value.DistinctKeys := by
  cases distinct with
  | array each => exact each value List.mem_append_cons_self

private theorem distinctKeys_replacedEntry
    (distinct : (Value.object (before ++ (key, value) :: after)).DistinctKeys)
    (kept : changed.DistinctKeys) :
    (Value.object (before ++ (key, changed) :: after)).DistinctKeys := by
  cases distinct with
  | object keys each =>
      refine .object (Keyed.distinct_middle_iff.mpr (Keyed.distinct_middle_iff.mp keys)) ?_
      rw [List.forall_mem_append, List.forall_mem_cons] at each ⊢
      exact ⟨each.1, kept, each.2.2⟩

private theorem distinctKeys_replacedItem
    (distinct : (Value.array (front ++ value :: back)).DistinctKeys)
    (kept : changed.DistinctKeys) : (Value.array (front ++ changed :: back)).DistinctKeys := by
  cases distinct with
  | array each =>
      refine .array ?_
      rw [List.forall_mem_append, List.forall_mem_cons] at each ⊢
      exact ⟨each.1, kept, each.2.2⟩

private theorem getElem?_replaced {place : Nat} (elsewhere : place ≠ front.length) :
    (front ++ value :: back)[place]? = (front ++ changed :: back)[place]? := by
  rcases Nat.lt_or_gt_of_ne elsewhere with inFront | behind
  · rw [List.getElem?_append_left inFront, List.getElem?_append_left inFront]
  · obtain ⟨further, rfl⟩ := Nat.exists_eq_add_of_lt behind
    simp [Nat.add_assoc, List.getElem?_append_right]

end Replaced

private theorem Change.distinctKeys (change : Change role document rearranged)
    (distinct : document.DistinctKeys) : rearranged.DistinctKeys := by
  induction change with
  | reorder record same =>
      cases distinct with
      | object keys each =>
          exact .object ((same.map _).nodup_iff.mp keys) fun entry member =>
            each entry (same.mem_iff.mpr member)
  | add record undeclared fresh valueDistinct =>
      cases distinct with
      | object keys each =>
          refine .object (Keyed.distinct_middle_iff.mpr ⟨fresh, keys⟩) ?_
          rw [List.forall_mem_append] at each
          exact List.forall_mem_append.mpr
            ⟨each.1, List.forall_mem_cons.mpr ⟨valueDistinct, each.2⟩⟩
  | field _ _ ih | entry _ ih =>
      exact distinctKeys_replacedEntry distinct (ih (distinctKeys_entry distinct).2)
  | place _ _ ih | item _ ih =>
      exact distinctKeys_replacedItem distinct (ih (distinctKeys_item distinct))

private theorem Change.readAlike (change : Change role document rearranged)
    (distinct : document.DistinctKeys) : ReadAlike role document rearranged := by
  induction change with
  | reorder record same =>
      refine readAlike_of_fields record (.object _ _) distinct
        ((Change.reorder record same).distinctKeys distinct) fun place name inner _ => ?_
      refine fieldAlike_of_eq distinct ?_
      cases distinct with
      | object keys _ => exact congrFun (Keyed.get?_perm keys same) name
  | @add role before after key value record undeclared fresh valueDistinct =>
      refine readAlike_of_fields record (.object _ _) distinct
        ((Change.add record undeclared fresh valueDistinct).distinctKeys distinct)
        fun place name inner declared => ?_
      have other : key ≠ name := fun same =>
        undeclared (same ▸ List.mem_map_of_mem (List.mem_of_getElem? declared))
      have inFront : key ∉ before.map (·.1) := fun known =>
        fresh (List.map_append ▸ List.mem_append_left _ known)
      refine fieldAlike_of_eq distinct ?_
      rw [field?, field?, Keyed.get?_middle inFront, if_neg other]
  | @field role inner before after key value changed declared change ih =>
      obtain ⟨inFront, valueDistinct⟩ := distinctKeys_entry distinct
      refine readAlike_of_fields (isRecord_of_mem declared) (.object _ _) distinct
        ((Change.field declared change).distinctKeys distinct)
        fun place name another declaredOther => ?_
      -- the names of fields are distinct, so what has changed stands for one of them only
      by_cases here : key = name
      · have known := List.mem_of_getElem? declaredOther
        obtain ⟨-, rfl⟩ := Prod.mk.inj
          (List.inj_on_of_nodup_map (distinct_fields _ _) declared known here)
        rw [field?, field?, Keyed.get?_middle inFront, Keyed.get?_middle inFront, if_pos here,
          if_pos here]
        exact .some (ih valueDistinct)
      · refine fieldAlike_of_eq distinct ?_
        rw [field?, field?, Keyed.get?_middle inFront, Keyed.get?_middle inFront, if_neg here,
          if_neg here]
  | @place role inner before after name value changed declared change ih =>
      have valueDistinct := distinctKeys_item distinct
      refine readAlike_of_fields (isRecord_of_mem (List.mem_of_getElem? declared))
        (.array (by simp)) distinct ((Change.place declared change).distinctKeys distinct)
        fun place other another declaredOther => ?_
      by_cases here : place = before.length
      · subst here
        obtain ⟨rfl, rfl⟩ := Prod.mk.inj (Option.some.inj (declared.symm.trans declaredOther))
        have stands : ∀ value : Value, field? name before.length
            (.array (before ++ value :: after)) = some value := fun value => by simp [field?]
        rw [stands, stands]
        exact .some (ih valueDistinct)
      · exact fieldAlike_of_eq distinct (getElem?_replaced here)
  | @item inner before after value changed change ih =>
      have valueDistinct := distinctKeys_item distinct
      cases distinct with
      | array each =>
          rw [List.forall_mem_append, List.forall_mem_cons] at each
          obtain ⟨inFront, -, behind⟩ := each
          refine readAlike_list (List.rel_append ?_ (.cons (ih valueDistinct) ?_))
          · exact List.forall₂_same.mpr fun item member => readAlike_refl (inFront item member) inner
          · exact List.forall₂_same.mpr fun item member => readAlike_refl (behind item member) inner
  | @entry inner before after key value changed change ih =>
      have valueDistinct := (distinctKeys_entry distinct).2
      cases distinct with
      | object _ each =>
          rw [List.forall_mem_append, List.forall_mem_cons] at each
          obtain ⟨inFront, -, behind⟩ := each
          refine readAlike_map (List.rel_append ?_ (.cons ⟨rfl, ih valueDistinct⟩ ?_))
          · exact List.forall₂_same.mpr fun entry member =>
              ⟨rfl, readAlike_refl (inFront entry member) inner⟩
          · exact List.forall₂_same.mpr fun entry member =>
              ⟨rfl, readAlike_refl (behind entry member) inner⟩

/-! ### Any number of changes -/

private theorem Rearranged.readAlike (changes : Rearranged role document rearranged)
    (distinct : document.DistinctKeys) :
    rearranged.DistinctKeys ∧ ReadAlike role document rearranged := by
  induction changes with
  | refl => exact ⟨distinct, readAlike_refl distinct role⟩
  | tail _ change ih =>
      obtain ⟨distinctBetween, alike⟩ := ih
      exact ⟨change.distinctKeys distinctBetween, alike.trans (change.readAlike distinctBetween)⟩

/-- Containers, typed values and models are read from a rearranged document as from the document
itself, or from neither. -/
theorem fromValue_rearranged {document rearranged : Value} (distinct : document.DistinctKeys) :
    (Rearranged .container document rearranged →
      (fromValue readContainer document).toOption = (fromValue readContainer rearranged).toOption) ∧
    (Rearranged (.typed false) document rearranged →
      (fromValue readTyped document).toOption = (fromValue readTyped rearranged).toOption) ∧
    (Rearranged .model document rearranged →
      (fromValue readModel document).toOption = (fromValue readModel rearranged).toOption) := by
  refine ⟨fun changes => ?_, fun changes => ?_, fun changes => ?_⟩
  · have alike := (changes.readAlike distinct).2.same .fewerWanted _ _ (Nat.lt_succ_self _)
      (Nat.lt_succ_self _)
    unfold fromValue readContainer
    rw [Node.height_ofValue, Node.height_ofValue]
    exact alike
  · have alike := (changes.readAlike distinct).2.same .fewerWanted _ _ (Nat.lt_succ_self _)
      (Nat.lt_succ_self _)
    unfold fromValue readTyped
    rw [Node.height_ofValue, Node.height_ofValue]
    exact alike
  · exact (changes.readAlike distinct).2.same .fewerWanted _ _ (Nat.lt_succ_self _)
      (Nat.lt_succ_self _)

def literalWith (inner : Value) : Value :=
  .object [("kind", .string "object-literal"), ("properties", .object [("a", inner)])]

def kindFirst : Value := .object [("kind", .string "string-literal"), ("value", .string "x")]

/-- The kind stands behind its field and behind a field of another kind. -/
def kindLast : Value :=
  .object [("value", .string "x"), ("values", .null), ("kind", .string "string-literal")]

def modelWith (literal : Value) : Value :=
  .object [("name", .string "M"),
    ("properties", .object [("p", .object [("defaultValue", literal)])])]

def nameFirst : Value :=
  .object [("name", .string "A"),
    ("interfaces", .array [.object [("name", .string "I"), ("client", .bool true)]])]

def nameLast : Value :=
  .object [("interfaces", .array [.object [("client", .bool true), ("name", .string "I")]]),
    ("note", .null), ("name", .string "A")]

private theorem rearranged_kindLast : Rearranged (.typed true) kindFirst kindLast := by
  have reordered : Change (.typed true) kindFirst
      (.object [("value", .string "x"), ("kind", .string "string-literal")]) :=
    .reorder trivial (.swap _ _ _)
  have added : Change (.typed true)
      (.object [("value", .string "x"), ("kind", .string "string-literal")]) kindLast :=
    @Change.add _ [("value", .string "x")] _ "values" .null trivial (by decide) (by decide) .null
  exact (ReflTransGen.single reordered).tail added

private theorem rearranged_literalWith {inner changed : Value}
    (changes : Rearranged (.typed true) inner changed) :
    Rearranged (.typed false) (literalWith inner) (literalWith changed) := by
  refine changes.lift literalWith fun value changed change => ?_
  have declared : ("properties", Role.map (.typed true)) ∈
      Role.fields (literalWith value) (.typed false) :=
    List.mem_cons_of_mem _ List.mem_cons_self
  exact @Change.field _ _ [("kind", .string "object-literal")] [] _ _ _ declared
    (@Change.entry _ [] [] "a" _ _ change)

private theorem rearranged_modelWith {literal changed : Value}
    (changes : Rearranged (.typed false) literal changed) :
    Rearranged .model (modelWith literal) (modelWith changed) := by
  refine changes.lift modelWith fun value changed change => ?_
  have property : Change .property (.object [("defaultValue", value)])
      (.object [("defaultValue", changed)]) :=
    @Change.field _ _ [] [] _ _ _ List.mem_cons_self change
  exact @Change.field _ _ [("name", .string "M")] [] _ _ _
    (List.mem_cons_of_mem _ List.mem_cons_self) (@Change.entry _ [] [] "p" _ _ property)

private theorem rearranged_nameLast : Rearranged .container nameFirst nameLast := by
  have inner : Change .container (.object [("name", .string "I"), ("client", .bool true)])
      (.object [("client", .bool true), ("name", .string "I")]) :=
    .reorder trivial (.swap _ _ _)
  have inside : Change .container nameFirst (.object [("name", .string "A"),
      ("interfaces", .array [.object [("client", .bool true), ("name", .string "I")]])]) :=
    @Change.field _ (.list .container) [("name", .string "A")] [] "interfaces" _ _
      (by simp [Role.fields]) (@Change.item _ [] [] _ _ inner)
  have reordered : Change .container (.object [("name", .string "A"),
        ("interfaces", .array [.object [("client", .bool true), ("name", .string "I")]])])
      (.object [("interfaces", .array [.object [("client", .bool true), ("name", .string "I")]]),
        ("name", .string "A")]) :=
    .reorder trivial (.swap _ _ _)
  refine ((ReflTransGen.single inside).tail reordered).tail ?_
  exact @Change.add _ [("interfaces", _)] [("name", .string "A")] "note" .null trivial (by decide)
    (by decide) .null

theorem fromValue_rearranged_kindLast :
    (nameFirst.DistinctKeys ∧ Rearranged .container nameFirst nameLast ∧
      (fromValue readContainer nameFirst).toOption =
        (fromValue readContainer nameLast).toOption) ∧
    ((literalWith kindFirst).DistinctKeys ∧
      Rearranged (.typed false) (literalWith kindFirst) (literalWith kindLast) ∧
      (fromValue readTyped (literalWith kindFirst)).toOption =
        (fromValue readTyped (literalWith kindLast)).toOption) ∧
    (modelWith (literalWith kindFirst)).DistinctKeys ∧
      Rearranged .model (modelWith (literalWith kindFirst)) (modelWith (literalWith kindLast)) ∧
      (fromValue readModel (modelWith (literalWith kindFirst))).toOption =
        (fromValue readModel (modelWith (literalWith kindLast))).toOption := by
  have container : nameFirst.DistinctKeys := Value.distinctKeys_collapse nameFirst
  have literal : (literalWith kindFirst).DistinctKeys :=
    Value.distinctKeys_collapse (literalWith kindFirst)
  have model : (modelWith (literalWith kindFirst)).DistinctKeys :=
    Value.distinctKeys_collapse (modelWith (literalWith kindFirst))
  have literals := rearranged_literalWith rearranged_kindLast
  have models := rearranged_modelWith literals
  exact ⟨⟨container, rearranged_nameLast,
      (fromValue_rearranged container).1 rearranged_nameLast⟩,
    ⟨literal, literals, (fromValue_rearranged literal).2.1 literals⟩,
    model, models, (fromValue_rearranged model).2.2 models⟩

example : fromValue readTyped (literalWith kindLast) = .ok (.object [("a", .string "x")]) := rfl

end Decode

end SdkClients
