import SdkClients.Json.NumberLiteral

set_option autoImplicit false

/-!
Number literals and what is read of them.

A literal consists of whole digits, and possibly a sign, a fraction and an exponent. It is read
alike wherever it stands: a comma, a closing bracket or the end of the text ends it, and the place
where it stands shows in faults only.
-/

namespace SdkClients.Json

/-! ### Places and what ends a value -/

namespace Position

@[simp] theorem afterAll_nil (place : Position) : place.afterAll [] = place := rfl

@[simp] theorem afterAll_cons (place : Position) (character : Char) (characters : List Char) :
    place.afterAll (character :: characters) = (place.after character).afterAll characters := rfl

@[simp] theorem afterAll_append (place : Position) (first second : List Char) :
    place.afterAll (first ++ second) = (place.afterAll first).afterAll second :=
  List.foldl_append

end Position

@[simp] theorem Cursor.next_cons (character : Char) (others : List Char) (place : Position) :
    Cursor.next ⟨character :: others, place⟩ = ⟨others, place.after character⟩ := rfl

/-- The text ends, or goes on with a character that ends a value inside brackets. -/
def Stops (rest : List Char) : Prop :=
  ∀ character ∈ rest.head?, character = ',' ∨ character = ']' ∨ character = '\x7d'

theorem stops_nil : Stops [] := nofun

private theorem Stops.cases {rest : List Char} (stops : Stops rest) :
    rest = [] ∨ ∃ others, rest = ',' :: others ∨ rest = ']' :: others ∨
      rest = '\x7d' :: others := by
  cases rest with
  | nil => exact .inl rfl
  | cons character others =>
      rcases stops character rfl with rfl | rfl | rfl
      · exact .inr ⟨others, .inl rfl⟩
      · exact .inr ⟨others, .inr (.inl rfl)⟩
      · exact .inr ⟨others, .inr (.inr rfl)⟩

private theorem Stops.not_digit {rest : List Char} (stops : Stops rest) :
    ∀ character ∈ rest.head?, character.isDigit = false := by
  intro character first
  rcases stops character first with rfl | rfl | rfl <;> rfl

/-! ### Digits -/

/-- One or more decimal digits. -/
structure Digits where
  characters : List Char
  filled : characters ≠ []
  decimal : ∀ character ∈ characters, character.isDigit = true

namespace Digits

def values (digits : Digits) : List Nat :=
  digits.characters.map fun character => character.toNat - '0'.toNat

theorem exists_cons (digits : Digits) :
    ∃ first others, digits.characters = first :: others ∧ first.isDigit = true := by
  obtain ⟨first, others, same⟩ := List.exists_cons_of_ne_nil digits.filled
  refine ⟨first, others, same, digits.decimal first ?_⟩
  rw [same]
  exact List.mem_cons_self

end Digits

private theorem digitsFrom_append {digits rest : List Char} (place : Position)
    (decimal : ∀ character ∈ digits, character.isDigit = true)
    (ends : ∀ character ∈ rest.head?, character.isDigit = false) :
    Cursor.digitsFrom (digits ++ rest) place =
      (digits.map fun character => character.toNat - '0'.toNat,
        ⟨rest, place.afterAll digits⟩) := by
  induction digits generalizing place with
  | nil =>
      cases rest with
      | nil => rfl
      | cons character others =>
          have other : character.isDigit = false := ends character rfl
          simp [Cursor.digitsFrom, other]
  | cons digit digits ih =>
      obtain ⟨first, later⟩ := List.forall_mem_cons.mp decimal
      rw [List.cons_append, Cursor.digitsFrom, if_pos first, ih (place.after digit) later]
      rfl

private theorem Digits.read (digits : Digits) {rest : List Char} (place : Position)
    (ends : ∀ character ∈ rest.head?, character.isDigit = false) :
    Cursor.digits ⟨digits.characters ++ rest, place⟩ =
      (digits.values, ⟨rest, place.afterAll digits.characters⟩) :=
  digitsFrom_append place digits.decimal ends

/-! ### Values of numerals -/

namespace Numeral

/-- An exponent that is too large is so wherever it stands. -/
private theorem exponentValue_toOption (total : Nat) (first second : Position) (digits : List Nat) :
    (exponentValue total first digits).toOption = (exponentValue total second digits).toOption := by
  induction digits generalizing total first second with
  | nil => rfl
  | cons digit digits ih =>
      rw [exponentValue, exponentValue]
      by_cases fits : total * 10 + digit < exponentBound
      · simp only [fits, if_true]
        exact ih _ _ _
      · simp only [fits, if_false]
        rfl

/-- The same numeral with its exponent at another place. -/
def placed (numeral : Numeral) (start : Position) : Numeral :=
  { numeral with exponent := numeral.exponent.map fun part => { part with start := start } }

/-- Places show in faults only. -/
private theorem value_placed_toOption (numeral : Numeral) (first second start stop : Position) :
    ((numeral.placed first).value start).toOption =
      ((numeral.placed second).value stop).toOption := by
  obtain ⟨negative, whole, fraction, exponent⟩ := numeral
  unfold value placed
  cases exponent with
  | none =>
      simp only [Option.map_none]
      split
      · rfl
      · split <;> rfl
  | some part =>
      simp only [Option.map_some, Option.isNone_some, Bool.and_false, Bool.false_and,
        Bool.false_eq_true, if_false]
      have same := exponentValue_toOption 0 first second part.digits
      cases left : exponentValue 0 first part.digits with
      | ok exponent =>
          cases right : exponentValue 0 second part.digits with
          | ok other =>
              rw [left, right] at same
              cases Option.some.inj same
              dsimp only
              split <;> rfl
          | error place =>
              rw [left, right] at same
              cases same
      | error place =>
          cases right : exponentValue 0 second part.digits with
          | ok other =>
              rw [left, right] at same
              cases same
          | error other =>
              dsimp only
              split <;> rfl

end Numeral

/-! ### Spellings -/

/-- A number literal: a zero stands alone in front of the point. -/
structure Spelling where
  negative : Bool
  whole : Digits
  bare : whole.characters.head? = some '0' → whole.characters = ['0']
  fraction : Option Digits
  /-- The digits of the exponent, and whether it is negative. -/
  exponent : Option (Bool × Digits)

namespace Spelling

/-- The sign of an exponent, which is always written. -/
def exponentSign (negative : Bool) : Char := if negative then '-' else '+'

def exponentText (spelling : Spelling) : List Char :=
  match spelling.exponent with
  | none => []
  | some (negative, digits) => 'e' :: exponentSign negative :: digits.characters

def fractionText (spelling : Spelling) : List Char :=
  match spelling.fraction with
  | none => []
  | some digits => '.' :: digits.characters

def unsignedText (spelling : Spelling) : List Char :=
  spelling.whole.characters ++ (spelling.fractionText ++ spelling.exponentText)

def text (spelling : Spelling) : List Char :=
  if spelling.negative then '-' :: spelling.unsignedText else spelling.unsignedText

def numeral (spelling : Spelling) (start : Position) : Numeral where
  negative := spelling.negative
  whole := spelling.whole.values
  fraction := spelling.fraction.map Digits.values
  exponent := spelling.exponent.map fun part => ⟨part.1, part.2.values, start⟩

/-- The number that a literal is read as, unless it is out of range. -/
def number (spelling : Spelling) : Option Number :=
  ((spelling.numeral .start).value .start).toOption

private theorem value_toOption (spelling : Spelling) (start stop : Position) :
    ((spelling.numeral start).value stop).toOption = spelling.number := by
  have placed : ∀ place, (spelling.numeral place).placed place = spelling.numeral place ∧
      (spelling.numeral start).placed place = spelling.numeral place := by
    intro place
    unfold numeral Numeral.placed
    cases spelling.exponent <;> exact ⟨rfl, rfl⟩
  have moved := Numeral.value_placed_toOption (spelling.numeral start) start .start stop .start
  rw [(placed start).1, (placed .start).2] at moved
  exact moved

/-! ### Scanning -/

/-- What is scanned of a literal, and where that ends. -/
def ScannedAs (spelling : Spelling) (scanned : Scanned Number) (after : Cursor) : Prop :=
  scanned.skip = .ok after ∧ scanned.read.toOption = spelling.number

private theorem exponent_read (negative : Bool) (digits : Digits) {rest : List Char}
    (stops : Stops rest)
    (place : Position) :
    NumberLiteral.exponent ⟨exponentSign negative :: (digits.characters ++ rest), place⟩ =
      ⟨.ok (⟨negative, digits.values, place.after (exponentSign negative)⟩,
        ⟨rest, (place.after (exponentSign negative)).afterAll digits.characters⟩),
        .ok ⟨rest, (place.after (exponentSign negative)).afterAll digits.characters⟩⟩ := by
  obtain ⟨first, others, same, isDigit⟩ := digits.exists_cons
  have read := digits.read (place.after (exponentSign negative)) stops.not_digit
  have opened : NumberLiteral.exponent
      ⟨exponentSign negative :: (digits.characters ++ rest), place⟩ =
      ⟨.ok (⟨negative, (Cursor.digits ⟨digits.characters ++ rest,
          place.after (exponentSign negative)⟩).1, place.after (exponentSign negative)⟩,
        (Cursor.digits ⟨digits.characters ++ rest, place.after (exponentSign negative)⟩).2),
        .ok (Cursor.digits ⟨digits.characters ++ rest,
          place.after (exponentSign negative)⟩).2⟩ := by
    rw [same]
    cases negative <;> simp [NumberLiteral.exponent, exponentSign, isDigit]
  rw [opened, read]

private theorem finish_scannedAs (spelling : Spelling) {rest : List Char} (stops : Stops rest)
    (place : Position) :
    spelling.ScannedAs
      (NumberLiteral.finish ⟨spelling.negative, spelling.whole.values,
        spelling.fraction.map Digits.values, none⟩ ⟨spelling.exponentText ++ rest, place⟩)
      ⟨rest, place.afterAll spelling.exponentText⟩ := by
  unfold exponentText
  cases part : spelling.exponent with
  | none =>
      have same : spelling.numeral .start = ⟨spelling.negative, spelling.whole.values,
          spelling.fraction.map Digits.values, none⟩ := by
        unfold numeral
        rw [part]
        rfl
      have plain : ∀ numeral, NumberLiteral.finish numeral ⟨rest, place⟩ =
          ⟨Numeral.value numeral place, .ok ⟨rest, place⟩⟩ := by
        intro numeral
        rcases stops.cases with rfl | ⟨others, rfl | rfl | rfl⟩ <;> rfl
      rw [List.nil_append, plain, ← same]
      exact ⟨rfl, spelling.value_toOption .start place⟩
  | some signed =>
      obtain ⟨negative, digits⟩ := signed
      have same : ∀ start, spelling.numeral start = ⟨spelling.negative, spelling.whole.values,
          spelling.fraction.map Digits.values, some ⟨negative, digits.values, start⟩⟩ := by
        intro start
        unfold numeral
        rw [part]
        rfl
      have marked : ∀ numeral others, NumberLiteral.finish numeral ⟨'e' :: others, place⟩ =
          ⟨(NumberLiteral.exponent ⟨others, place.after 'e'⟩).read.bind fun found =>
            Numeral.value { numeral with exponent := found.1 } found.2.place,
            (NumberLiteral.exponent ⟨others, place.after 'e'⟩).skip⟩ := fun _ _ => rfl
      rw [List.cons_append, List.cons_append, marked, exponent_read negative digits stops]
      refine ⟨rfl, ?_⟩
      rw [← spelling.value_toOption ((place.after 'e').after (exponentSign negative)), same]
      rfl

/-- What follows the fraction: an exponent, or the end of the literal. -/
private theorem head_exponentText (spelling : Spelling) {rest : List Char} (stops : Stops rest) :
    ∀ character ∈ (spelling.exponentText ++ rest).head?,
      character.isDigit = false ∧ character ≠ '.' := by
  intro character first
  unfold exponentText at first
  cases part : spelling.exponent with
  | none =>
      rw [part] at first
      rcases stops character first with rfl | rfl | rfl <;> decide
  | some signed =>
      rw [part] at first
      cases first
      decide

theorem afterWhole_of_head {negative : Bool} {whole : List Nat} {left : List Char}
    {place : Position} (head : ∀ character ∈ left.head?, character ≠ '.') :
    NumberLiteral.afterWhole negative whole ⟨left, place⟩ =
      NumberLiteral.finish ⟨negative, whole, none, none⟩ ⟨left, place⟩ := by
  unfold NumberLiteral.afterWhole
  split
  · next others point =>
      have same : left = '.' :: others := point
      exact absurd rfl (head '.' (same ▸ rfl))
  · rfl

private theorem afterWhole_scannedAs (spelling : Spelling) {rest : List Char} (stops : Stops rest)
    (place : Position) :
    spelling.ScannedAs
      (NumberLiteral.afterWhole spelling.negative spelling.whole.values
        ⟨spelling.fractionText ++ (spelling.exponentText ++ rest), place⟩)
      ⟨rest, (place.afterAll spelling.fractionText).afterAll spelling.exponentText⟩ := by
  have head := spelling.head_exponentText stops
  have finished := fun place => spelling.finish_scannedAs stops place
  unfold fractionText
  cases part : spelling.fraction with
  | none =>
      rw [List.nil_append, afterWhole_of_head fun character first => (head character first).2]
      rw [part] at finished
      exact finished place
  | some digits =>
      have read := digits.read (place.after '.') fun character first => (head character first).1
      obtain ⟨first, others, same, -⟩ := digits.exists_cons
      have filled : ∃ value values, digits.values = value :: values := by
        unfold Digits.values
        rw [same]
        exact ⟨_, _, rfl⟩
      obtain ⟨value, values, digitValues⟩ := filled
      have opened : NumberLiteral.afterWhole spelling.negative spelling.whole.values
          ⟨'.' :: (digits.characters ++ (spelling.exponentText ++ rest)), place⟩ =
          NumberLiteral.finish ⟨spelling.negative, spelling.whole.values, some digits.values, none⟩
            ⟨spelling.exponentText ++ rest, (place.after '.').afterAll digits.characters⟩ := by
        simp only [NumberLiteral.afterWhole, Cursor.next_cons, read, digitValues]
      rw [List.cons_append, opened]
      rw [part] at finished
      exact finished _

private theorem head_fractionText (spelling : Spelling) {rest : List Char} (stops : Stops rest) :
    ∀ character ∈ (spelling.fractionText ++ (spelling.exponentText ++ rest)).head?,
      character.isDigit = false := by
  intro character first
  unfold fractionText at first
  cases part : spelling.fraction with
  | none =>
      rw [part] at first
      exact (spelling.head_exponentText stops character first).1
  | some digits =>
      rw [part] at first
      cases first
      decide

private theorem unsigned_of_zero {negative : Bool} {left : List Char} {place : Position}
    (ends : ∀ character ∈ left.head?, character.isDigit = false) :
    NumberLiteral.unsigned negative ⟨'0' :: left, place⟩ =
      NumberLiteral.afterWhole negative [0] ⟨left, place.after '0'⟩ := by
  cases left with
  | nil => rfl
  | cons second others =>
      have other : second.isDigit = false := ends second rfl
      simp only [NumberLiteral.unsigned, other, Bool.false_eq_true, if_false, Cursor.next_cons]

theorem unsigned_of_digit {negative : Bool} {first : Char} {others : List Char} {place : Position}
    (isDigit : first.isDigit = true) (filled : first ≠ '0') :
    NumberLiteral.unsigned negative ⟨first :: others, place⟩ =
      NumberLiteral.afterWhole negative (Cursor.digits ⟨first :: others, place⟩).1
        (Cursor.digits ⟨first :: others, place⟩).2 := by
  unfold NumberLiteral.unsigned
  split
  · next empty => cases empty
  · next zero =>
      cases zero
      exact absurd rfl filled
  · next same =>
      cases same
      rw [if_pos isDigit]

private theorem unsigned_scannedAs (spelling : Spelling) {rest : List Char} (stops : Stops rest)
    (place : Position) :
    spelling.ScannedAs
      (NumberLiteral.unsigned spelling.negative ⟨spelling.unsignedText ++ rest, place⟩)
      ⟨rest, place.afterAll spelling.unsignedText⟩ := by
  have ends := spelling.head_fractionText stops
  have scanned := fun place => spelling.afterWhole_scannedAs stops place
  obtain ⟨first, others, same, isDigit⟩ := spelling.whole.exists_cons
  unfold unsignedText
  rw [List.append_assoc, List.append_assoc, Position.afterAll_append, Position.afterAll_append]
  by_cases zero : first = '0'
  · subst zero
    have alone : spelling.whole.characters = ['0'] := spelling.bare (by rw [same]; rfl)
    have value : spelling.whole.values = [0] := by
      unfold Digits.values
      rw [alone]
      rfl
    rw [value] at scanned
    rw [alone, List.cons_append, List.nil_append, unsigned_of_zero ends]
    exact scanned _
  · have read := spelling.whole.read place ends
    rw [same, List.cons_append] at read
    rw [same, List.cons_append, unsigned_of_digit isDigit zero, read]
    exact scanned _

theorem head_unsignedText (spelling : Spelling) :
    ∃ first others, spelling.unsignedText = first :: others ∧ first.isDigit = true := by
  obtain ⟨first, others, same, isDigit⟩ := spelling.whole.exists_cons
  refine ⟨first, others ++ (spelling.fractionText ++ spelling.exponentText), ?_, isDigit⟩
  rw [unsignedText, same, List.cons_append]

/-- A literal is read to its end, and alike wherever it stands. -/
theorem scan_scannedAs (spelling : Spelling) {rest : List Char} (stops : Stops rest)
    (place : Position) :
    spelling.ScannedAs (NumberLiteral.scan ⟨spelling.text ++ rest, place⟩)
      ⟨rest, place.afterAll spelling.text⟩ := by
  have scanned := fun place => spelling.unsigned_scannedAs stops place
  unfold text
  cases signed : spelling.negative with
  | true =>
      rw [signed] at scanned
      exact scanned (place.after '-')
  | false =>
      rw [signed] at scanned
      obtain ⟨first, others, same, isDigit⟩ := spelling.head_unsignedText
      have unmarked : first ≠ '-' := by
        rintro rfl
        exact absurd isDigit (by decide)
      have opened : NumberLiteral.scan ⟨spelling.unsignedText ++ rest, place⟩ =
          NumberLiteral.unsigned false ⟨spelling.unsignedText ++ rest, place⟩ := by
        unfold NumberLiteral.scan
        rw [same, List.cons_append]
        split
        · next minus =>
            cases minus
            exact absurd rfl unmarked
        · rfl
      rw [if_neg (by decide), opened]
      exact scanned place

end Spelling

end SdkClients.Json
