import SdkClients.Json.Path
import Std.Data.String.ToNat

set_option autoImplicit false

/-!
Paths and their texts.

A name in a path goes up to the next dot or bracket, and the digits of an index up to the closing
bracket. So a path can be told from its text, as long as no name in it is empty or has one of these
characters.
-/

namespace SdkClients.Json

/-- A step whose text ends where the next step begins. -/
def Segment.IsPlain : Segment → Prop
  | .field name => name ≠ "" ∧ ∀ character ∈ name.toList, character ≠ '.' ∧ character ≠ '['
  | .index _ => True
  | .unnamed => False

/-- A word that goes on as long as its characters are of one kind can be told from what follows. -/
private theorem split_at_end (kind : Char → Bool) {word other rest others : List Char}
    (inside : ∀ character ∈ word, kind character = true)
    (insideOther : ∀ character ∈ other, kind character = true)
    (ends : ∀ character ∈ rest.head?, kind character = false)
    (endsOther : ∀ character ∈ others.head?, kind character = false)
    (same : word ++ rest = other ++ others) : word = other ∧ rest = others := by
  have whole : ∀ {word rest : List Char}, (∀ character ∈ word, kind character = true) →
      (∀ character ∈ rest.head?, kind character = false) →
      (word ++ rest).takeWhile kind = word := by
    intro word rest inside ends
    rw [List.takeWhile_append_of_pos inside]
    cases rest with
    | nil => exact List.append_nil word
    | cons first rest =>
        rw [List.takeWhile_cons_of_neg (by simp [ends first rfl]), List.append_nil]
  have words : word = other := by
    rw [← whole inside ends, same, whole insideOther endsOther]
  subst words
  exact ⟨rfl, List.append_cancel_left same⟩

private theorem toList_describeSteps_field (name : String) (others : List Segment) :
    (describeSteps (.field name :: others)).toList =
      '.' :: (name.toList ++ (describeSteps others).toList) := by
  simp [describeSteps, Segment.text]

private theorem toList_describeSteps_index (position : Nat) (others : List Segment) :
    (describeSteps (.index position :: others)).toList =
      '[' :: ((toString position).toList ++ ']' :: (describeSteps others).toList) := by
  simp [describeSteps, Segment.text]

private theorem toList_describeSteps_unnamed (others : List Segment) :
    (describeSteps (.unnamed :: others)).toList = '.' :: '?' :: (describeSteps others).toList := by
  simp [describeSteps, Segment.text]

private theorem head_describeSteps (path : List Segment) :
    ∀ character ∈ (describeSteps path).toList.head?, character = '.' ∨ character = '[' := by
  intro character first
  cases path with
  | nil => simp [describeSteps] at first
  | cons step others =>
      cases step with
      | field name =>
          rw [toList_describeSteps_field] at first
          exact .inl (Option.some.inj first).symm
      | index position =>
          rw [toList_describeSteps_index] at first
          exact .inr (Option.some.inj first).symm
      | unnamed =>
          rw [toList_describeSteps_unnamed] at first
          exact .inl (Option.some.inj first).symm

private theorem field_split {name other : String} {path others : List Segment}
    (plain : (Segment.field name).IsPlain) (plainOther : (Segment.field other).IsPlain)
    (same : name.toList ++ (describeSteps path).toList =
      other.toList ++ (describeSteps others).toList) :
    name = other ∧ describeSteps path = describeSteps others := by
  have ends : ∀ path : List Segment, ∀ character ∈ (describeSteps path).toList.head?,
      (character != '.' && character != '[') = false := by
    intro path character first
    rcases head_describeSteps path character first with rfl | rfl <;> rfl
  obtain ⟨names, rests⟩ := split_at_end (fun character => character != '.' && character != '[')
    (by simpa using plain.2) (by simpa using plainOther.2) (ends path) (ends others) same
  exact ⟨String.toList_inj.mp names, String.toList_inj.mp rests⟩

private theorem index_split {position other : Nat} {path others : List Segment}
    (same : (toString position).toList ++ ']' :: (describeSteps path).toList =
      (toString other).toList ++ ']' :: (describeSteps others).toList) :
    position = other ∧ describeSteps path = describeSteps others := by
  have digits : ∀ position : Nat, ∀ character ∈ (toString position).toList,
      character.isDigit = true := by
    intro position character member
    rw [Nat.toString_eq_ofList_toDigits, String.toList_ofList] at member
    exact Nat.isDigit_of_mem_toDigits (by decide) (by decide) member
  have ends : ∀ path : List Segment, ∀ character ∈ (']' :: (describeSteps path).toList).head?,
      character.isDigit = false := by
    rintro path character first
    obtain rfl := Option.some.inj first
    rfl
  obtain ⟨numbers, rests⟩ := split_at_end Char.isDigit (digits position) (digits other) (ends path)
    (ends others) same
  exact ⟨Nat.repr_inj.mp (String.toList_inj.mp numbers),
    String.toList_inj.mp (List.cons.inj rests).2⟩

private theorem describeSteps_cons_ne_empty (step : Segment) (others : List Segment) :
    describeSteps (step :: others) ≠ "" := by
  intro empty
  cases step with
  | field name =>
      have text := toList_describeSteps_field name others
      rw [empty] at text
      cases text
  | index position =>
      have text := toList_describeSteps_index position others
      rw [empty] at text
      cases text
  | unnamed =>
      have text := toList_describeSteps_unnamed others
      rw [empty] at text
      cases text

private theorem describeSteps_inj {path other : List Segment} (plain : ∀ step ∈ path, step.IsPlain)
    (plainOther : ∀ step ∈ other, step.IsPlain) (same : describeSteps path = describeSteps other) :
    path = other := by
  induction path generalizing other with
  | nil =>
      cases other with
      | nil => rfl
      | cons step others => exact absurd same.symm (describeSteps_cons_ne_empty step others)
  | cons step path ih =>
      cases other with
      | nil => exact absurd same (describeSteps_cons_ne_empty step path)
      | cons second others =>
          obtain ⟨plainHere, plainLater⟩ := List.forall_mem_cons.mp plain
          obtain ⟨plainSecond, plainOthers⟩ := List.forall_mem_cons.mp plainOther
          have texts := congrArg String.toList same
          -- a dot is in front of a name, and a bracket in front of an index
          cases step with
          | unnamed => cases plainHere
          | field name =>
              rw [toList_describeSteps_field] at texts
              cases second with
              | unnamed => cases plainSecond
              | index position =>
                  rw [toList_describeSteps_index] at texts
                  exact absurd (List.cons.inj texts).1 (by decide)
              | field secondName =>
                  rw [toList_describeSteps_field] at texts
                  obtain ⟨rfl, rest⟩ := field_split plainHere plainSecond (List.cons.inj texts).2
                  rw [ih plainLater plainOthers rest]
          | index position =>
              rw [toList_describeSteps_index] at texts
              cases second with
              | unnamed => cases plainSecond
              | field name =>
                  rw [toList_describeSteps_field] at texts
                  exact absurd (List.cons.inj texts).1 (by decide)
              | index secondPosition =>
                  rw [toList_describeSteps_index] at texts
                  obtain ⟨rfl, rest⟩ := index_split (List.cons.inj texts).2
                  rw [ih plainLater plainOthers rest]

/-- How the text of a path starts: with a character of a name, or with a bracket. -/
private theorem exists_head_describePath {step : Segment} (plain : step.IsPlain)
    (others : List Segment) :
    ∃ first rest, (describePath (step :: others)).toList = first :: rest ∧ first ≠ '.' ∧
      (first = '[' ↔ step.text.2 = false) := by
  cases step with
  | unnamed => cases plain
  | index position =>
      exact ⟨'[', _, by simp [describePath, Segment.text]; rfl, by decide, by simp [Segment.text]⟩
  | field name =>
      obtain ⟨filled, plain⟩ := plain
      obtain ⟨first, rest, text⟩ := List.exists_cons_of_ne_nil
        (mt String.toList_eq_nil_iff.mp filled)
      obtain ⟨noDot, noBracket⟩ := plain first (text ▸ List.mem_cons_self)
      refine ⟨first, rest ++ (describeSteps others).toList, ?_, noDot, ?_⟩
      · rw [describePath, Segment.text, String.toList_append, text, List.cons_append]
      · simp [noBracket, Segment.text]

private theorem describeSteps_cons (step : Segment) (others : List Segment) :
    describeSteps (step :: others) =
      (if step.text.2 then "." else "") ++ describePath (step :: others) := by
  rw [describeSteps, describePath, String.append_assoc]

theorem describePath_inj {path other : List Segment} (plain : ∀ step ∈ path, step.IsPlain)
    (plainOther : ∀ step ∈ other, step.IsPlain) (same : describePath path = describePath other) :
    path = other := by
  have filled : ∀ {step : Segment} {others : List Segment}, step.IsPlain →
      describePath (step :: others) ≠ describePath [] := by
    intro step others plain single
    obtain ⟨first, rest, text, noDot, -⟩ := exists_head_describePath plain others
    rw [single] at text
    exact noDot (List.cons.inj text).1.symm
  cases path with
  | nil =>
      cases other with
      | nil => rfl
      | cons step others =>
          exact absurd same.symm (filled (plainOther step List.mem_cons_self))
  | cons step path =>
      cases other with
      | nil => exact absurd same (filled (plain step List.mem_cons_self))
      | cons second others =>
          obtain ⟨first, rest, text, -, bracket⟩ :=
            exists_head_describePath (plain step List.mem_cons_self) path
          obtain ⟨firstOther, restOther, textOther, -, bracketOther⟩ :=
            exists_head_describePath (plainOther second List.mem_cons_self) others
          rw [same, textOther] at text
          rw [(List.cons.inj text).1, bracket] at bracketOther
          have dots : step.text.2 = second.text.2 := by
            rw [Bool.eq_iff_iff, ← Bool.not_eq_false, ← Bool.not_eq_false, bracketOther]
          refine describeSteps_inj plain plainOther ?_
          rw [describeSteps_cons, describeSteps_cons, dots, same]

end SdkClients.Json
