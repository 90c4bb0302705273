import SdkClients.Proofs.Json.Strings

set_option autoImplicit false

/-!
Tokens of a text with a carriage return behind it.

The carriage return belongs to no token, and it continues none: a number and a word end before it,
and a string without its closing quote stays without it. So a token means the same and ends at the
same place, or it is refused in both texts, though perhaps for another reason.
-/

namespace SdkClients.Json

/-- The cursor with a carriage return behind all that is left of the text. -/
def Cursor.followed (cursor : Cursor) : Cursor := ⟨cursor.left ++ ['\r'], cursor.place⟩

/-- Two attempts give the same and go on alike, with less left than the bound, or both fail. -/
inductive TokenAlike {α : Type} (bound : Nat) (short long : Except Malformed (α × Cursor)) : Prop
  | both {meaning : α} {after : Cursor} : after.left.length < bound →
      short = .ok (meaning, after) → long = .ok (meaning, after.followed) →
      TokenAlike bound short long
  | neither {fault other : Malformed} : short = .error fault → long = .error other →
      TokenAlike bound short long

/-- What is known of a meaning and of what follows it, if anything is. In one text and the other
the meaning is the same and what follows goes on alike, or there is no meaning in either. -/
inductive Alike {α : Type} (bound : Nat) (short long : Option α × Option Cursor) : Prop
  | both {meaning : α} {after : Cursor} : after.left.length < bound →
      short = (some meaning, some after) → long = (some meaning, some after.followed) →
      Alike bound short long
  | neither : short.1 = none → long.1 = none → Alike bound short long

private theorem TokenAlike.mono {α : Type} {bound wider : Nat}
    {short long : Except Malformed (α × Cursor)}
    (alike : TokenAlike bound short long) (wide : bound ≤ wider) : TokenAlike wider short long := by
  cases alike with
  | both closer first second => exact .both (by omega) first second
  | neither first second => exact .neither first second

theorem Alike.mono {α : Type} {bound wider : Nat} {short long : Option α × Option Cursor}
    (alike : Alike bound short long) (wide : bound ≤ wider) : Alike wider short long := by
  cases alike with
  | both closer first second => exact .both (by omega) first second
  | neither first second => exact .neither first second

/-- What reading and skipping make of a token. -/
def Scanned.outcome {α : Type} (scanned : Scanned α) : Option α × Option Cursor :=
  (scanned.read.toOption, scanned.skip.toOption)

/-! ### Words and digits -/

namespace Cursor

theorem word_followed {letters : List Char} (plain : '\r' ∉ letters) (cursor : Cursor) :
    (∃ after : Cursor, after.left.length ≤ cursor.left.length ∧
        cursor.word letters = .ok after ∧ cursor.followed.word letters = .ok after.followed) ∨
      ∃ fault other, cursor.word letters = .error fault ∧
        cursor.followed.word letters = .error other := by
  induction letters generalizing cursor with
  | nil => exact .inl ⟨cursor, Nat.le_refl _, rfl, rfl⟩
  | cons wanted letters ih =>
      obtain ⟨left, place⟩ := cursor
      cases left with
      | nil =>
          have other : ¬ '\r' = wanted := List.ne_of_not_mem_cons plain
          exact .inr ⟨_, _, rfl, if_neg other⟩
      | cons character others =>
          simp only [followed, List.cons_append, word]
          by_cases same : character = wanted
          · simp only [if_pos same]
            rcases ih (List.not_mem_of_not_mem_cons plain) ⟨others, place.after character⟩ with
              ⟨after, closer, first, second⟩ | refused
            · exact .inl ⟨after, Nat.le_succ_of_le closer, first, second⟩
            · exact .inr refused
          · simp only [if_neg same]
            exact .inr ⟨_, _, rfl, rfl⟩

private theorem digits_followed (cursor : Cursor) :
    cursor.followed.digits = (cursor.digits.1, cursor.digits.2.followed) := by
  obtain ⟨left, place⟩ := cursor
  show digitsFrom (left ++ ['\r']) place = _
  unfold digits
  induction left generalizing place with
  | nil => rfl
  | cons character others ih =>
      simp only [List.cons_append, digitsFrom]
      cases character.isDigit with
      | false => rfl
      | true => simp only [if_true, ih]

private theorem length_digits_le (cursor : Cursor) :
    cursor.digits.2.left.length ≤ cursor.left.length := by
  obtain ⟨left, place⟩ := cursor
  unfold digits
  induction left generalizing place with
  | nil => exact Nat.le_refl _
  | cons character others ih =>
      simp only [digitsFrom]
      cases character.isDigit with
      | false => exact Nat.le_refl _
      | true => exact Nat.le_succ_of_le (ih _)

/-- A digit at the cursor is moved over. -/
private theorem length_digits_lt {first : Char} (digit : first.isDigit = true) (others : List Char)
    (place : Position) :
    (digits ⟨first :: others, place⟩).2.left.length < (first :: others).length := by
  have rest := length_digits_le ⟨others, place.after first⟩
  simp only [digits, digitsFrom, digit, if_true]
  exact Nat.lt_succ_of_le rest

end Cursor

/-! ### Numbers -/

namespace NumberLiteral

/-- The digits of an exponent. -/
def exponentDigits (negative : Bool) (cursor : Cursor) : Scanned (ExponentPart × Cursor) :=
  match cursor.left with
  | [] => missingDigits cursor
  | first :: _ =>
      if first.isDigit then
        ⟨.ok (⟨negative, cursor.digits.1, cursor.place⟩, cursor.digits.2), .ok cursor.digits.2⟩
      else .refused (cursor.faultAhead .invalidNumber)

private theorem exponent_cons (first : Char) (others : List Char) (place : Position) :
    exponent ⟨first :: others, place⟩ =
      if first = '-' then exponentDigits true ⟨others, place.after first⟩
      else if first = '+' then exponentDigits false ⟨others, place.after first⟩
      else exponentDigits false ⟨first :: others, place⟩ := by
  by_cases minus : first = '-'
  · subst minus
    rfl
  · by_cases plus : first = '+'
    · subst plus
      rfl
    · simp [exponent, exponentDigits, minus, plus]

/-- Where an exponent is read, it is also skipped, and ends at the same place. -/
private theorem exponentDigits_skip {negative : Bool} {cursor : Cursor}
    {found : ExponentPart × Cursor}
    (read : (exponentDigits negative cursor).read = .ok found) :
    (exponentDigits negative cursor).skip = .ok found.2 := by
  unfold exponentDigits at read ⊢
  split at read
  · cases read
  · split at read
    · next digit => cases read; rw [if_pos digit]
    · cases read

private theorem exponentDigits_followed (negative : Bool) (cursor : Cursor) :
    TokenAlike cursor.left.length (exponentDigits negative cursor).read
      (exponentDigits negative cursor.followed).read := by
  obtain ⟨left, place⟩ := cursor
  cases left with
  | nil => exact .neither rfl rfl
  | cons first others =>
      have moved := Cursor.digits_followed ⟨first :: others, place⟩
      simp only [exponentDigits, moved]
      simp only [Cursor.followed, List.cons_append]
      cases digit : first.isDigit with
      | false => exact .neither rfl rfl
      | true => exact .both (Cursor.length_digits_lt digit others place) rfl rfl

private theorem exponent_skip {cursor : Cursor} {found : ExponentPart × Cursor}
    (read : (exponent cursor).read = .ok found) : (exponent cursor).skip = .ok found.2 := by
  obtain ⟨left, place⟩ := cursor
  cases left with
  | nil => cases read
  | cons first others =>
      rw [exponent_cons] at read ⊢
      split_ifs at read ⊢ <;> exact exponentDigits_skip read

private theorem exponent_followed (cursor : Cursor) :
    TokenAlike cursor.left.length (exponent cursor).read (exponent cursor.followed).read := by
  obtain ⟨left, place⟩ := cursor
  cases left with
  | nil => exact .neither rfl rfl
  | cons first others =>
      have later (negative : Bool) :=
        exponentDigits_followed negative ⟨others, place.after first⟩
      rw [exponent_cons, Cursor.followed, List.cons_append, exponent_cons]
      split_ifs
      · exact (later true).mono (Nat.le_succ _)
      · exact (later false).mono (Nat.le_succ _)
      · exact exponentDigits_followed false ⟨first :: others, place⟩

private theorem ended_alike (value : Except Malformed Number) (cursor : Cursor) :
    Alike (cursor.left.length + 1) (Scanned.outcome ⟨value, .ok cursor⟩)
      (Scanned.outcome ⟨value, .ok cursor.followed⟩) := by
  cases value with
  | error fault => exact .neither rfl rfl
  | ok number => exact .both (Nat.lt_succ_self _) rfl rfl

private theorem finish_cons (numeral : Numeral) (first : Char) (others : List Char)
    (place : Position) :
    finish numeral ⟨first :: others, place⟩ =
      if first = 'e' ∨ first = 'E' then
        ⟨(exponent ⟨others, place.after first⟩).read.bind fun found =>
            Numeral.value { numeral with exponent := found.1 } found.2.place,
          (exponent ⟨others, place.after first⟩).skip⟩
      else ⟨numeral.value place, .ok ⟨first :: others, place⟩⟩ := by
  by_cases marked : first = 'e' ∨ first = 'E'
  · rw [if_pos marked]
    rcases marked with rfl | rfl <;> rfl
  · rw [if_neg marked]
    obtain ⟨small, large⟩ := not_or.mp marked
    simp [finish, small, large]

private theorem finish_alike (numeral : Numeral) (cursor : Cursor) :
    Alike (cursor.left.length + 1) (finish numeral cursor).outcome
      (finish numeral cursor.followed).outcome := by
  obtain ⟨left, place⟩ := cursor
  cases left with
  | nil => exact ended_alike (numeral.value place) ⟨[], place⟩
  | cons first others =>
      have exponents := exponent_followed ⟨others, place.after first⟩
      rw [Cursor.followed] at exponents
      rw [finish_cons, Cursor.followed, List.cons_append, finish_cons]
      split_ifs
      · cases exponents with
        | @both part after closer short long =>
            rw [short, long, exponent_skip short, exponent_skip long]
            have ended := ended_alike
              (Numeral.value { numeral with exponent := some part } after.place) after
            exact ended.mono (Nat.le_succ_of_le (Nat.le_succ_of_le closer))
        | neither short long =>
            rw [short, long]
            exact .neither rfl rfl
      · exact ended_alike (numeral.value place) ⟨first :: others, place⟩

private theorem afterWhole_alike (negative : Bool) (whole : List Nat) (cursor : Cursor) :
    Alike (cursor.left.length + 1) (afterWhole negative whole cursor).outcome
      (afterWhole negative whole cursor.followed).outcome := by
  obtain ⟨left, place⟩ := cursor
  cases left with
  | nil => exact finish_alike ⟨negative, whole, none, none⟩ ⟨[], place⟩
  | cons first others =>
      by_cases pointed : first = '.'
      · subst pointed
        have moved := Cursor.digits_followed ⟨others, place.after '.'⟩
        have shorter := Cursor.length_digits_le ⟨others, place.after '.'⟩
        rw [Cursor.followed] at moved
        simp only [afterWhole, Cursor.followed, List.cons_append, Cursor.next_cons, moved]
        generalize Cursor.digits ⟨others, place.after '.'⟩ = found at shorter
        obtain ⟨fraction, after⟩ := found
        cases fraction with
        | nil => cases others <;> exact .neither rfl rfl
        | cons digit digits =>
            have finished := finish_alike ⟨negative, whole, some (digit :: digits), none⟩ after
            exact finished.mono (Nat.succ_le_succ (Nat.le_succ_of_le shorter))
      · have unpointed (others : List Char) :
            ∀ character ∈ (first :: others).head?, character ≠ '.' := by
          intro character head
          cases head
          exact pointed
        rw [Cursor.followed, List.cons_append, Spelling.afterWhole_of_head (unpointed _),
          Spelling.afterWhole_of_head (unpointed _)]
        exact finish_alike ⟨negative, whole, none, none⟩ ⟨first :: others, place⟩

/-- A zero stands alone before a return, just as it does at the end of the text. -/
private theorem unsigned_alike (negative : Bool) (cursor : Cursor) :
    Alike cursor.left.length (unsigned negative cursor).outcome
      (unsigned negative cursor.followed).outcome := by
  obtain ⟨left, place⟩ := cursor
  cases left with
  | nil => exact .neither rfl rfl
  | cons first others =>
      by_cases zero : first = '0'
      · subst zero
        have whole := afterWhole_alike negative [0] ⟨others, place.after '0'⟩
        cases others with
        | nil => exact whole
        | cons second others =>
            cases digit : second.isDigit with
            | true =>
                simp only [unsigned, Cursor.followed, List.cons_append, digit, if_true]
                exact .neither rfl rfl
            | false =>
                simp only [unsigned, Cursor.followed, List.cons_append, digit, Bool.false_eq_true,
                  if_false]
                exact whole
      · cases digit : first.isDigit with
        | true =>
            have moved := Cursor.digits_followed ⟨first :: others, place⟩
            have shorter := Cursor.length_digits_lt digit others place
            have whole := afterWhole_alike negative (Cursor.digits ⟨first :: others, place⟩).1
              (Cursor.digits ⟨first :: others, place⟩).2
            rw [Cursor.followed, List.cons_append] at moved
            rw [Cursor.followed, List.cons_append, Spelling.unsigned_of_digit digit zero,
              Spelling.unsigned_of_digit digit zero, moved]
            exact whole.mono shorter
        | false =>
            have refused (others : List Char) : (unsigned negative ⟨first :: others, place⟩).read =
                .error (Cursor.faultAhead ⟨first :: others, place⟩ .invalidNumber) := by
              simp [unsigned, zero, digit, Scanned.refused]
            refine .neither ?_ ?_
            · rw [Scanned.outcome, refused]
              rfl
            · rw [Cursor.followed, List.cons_append, Scanned.outcome, refused]
              rfl

/-- A number literal means the same and ends at the same place in front of a return. -/
theorem scan_alike (cursor : Cursor) :
    Alike cursor.left.length (scan cursor).outcome (scan cursor.followed).outcome := by
  obtain ⟨left, place⟩ := cursor
  cases left with
  | nil => exact unsigned_alike false ⟨[], place⟩
  | cons first others =>
      by_cases minus : first = '-'
      · subst minus
        exact (unsigned_alike true ⟨others, place.after '-'⟩).mono (Nat.le_succ _)
      · have unmarked (others : List Char) :
            scan ⟨first :: others, place⟩ = unsigned false ⟨first :: others, place⟩ := by
          simp [scan, minus]
        rw [Cursor.followed, List.cons_append, unmarked, unmarked]
        exact unsigned_alike false ⟨first :: others, place⟩

end NumberLiteral

/-! ### Strings -/

namespace StringLiteral

private theorem hexQuad_return (first second third : Char) :
    hexQuad first second third '\r' = none := by
  have unread : hexDigit '\r' = none := by decide
  unfold hexQuad
  rw [unread]
  cases hexDigit first <;> cases hexDigit second <;> cases hexDigit third <;> rfl

private theorem codeUnit_followed (cursor : Cursor) :
    TokenAlike cursor.left.length (codeUnit cursor) (codeUnit cursor.followed) := by
  obtain ⟨left, place⟩ := cursor
  match left with
  | [] | [_] | [_, _] => exact .neither rfl rfl
  | [first, second, third] =>
      have long : codeUnit (Cursor.followed ⟨[first, second, third], place⟩) =
          .error (badUnit (Cursor.followed ⟨[first, second, third], place⟩)) := by
        simp only [codeUnit, Cursor.followed, List.cons_append, List.nil_append, hexQuad_return]
      exact .neither rfl long
  | first :: second :: third :: fourth :: others =>
      simp only [codeUnit, Cursor.followed, List.cons_append, Cursor.next_cons]
      cases hexQuad first second third fourth with
      | none => exact .neither rfl rfl
      | some unit => exact .both (by simp only [List.length_cons]; omega) rfl rfl

private theorem trailingUnit_followed (cursor : Cursor) :
    TokenAlike cursor.left.length (trailingUnit cursor) (trailingUnit cursor.followed) := by
  obtain ⟨left, place⟩ := cursor
  cases left with
  | nil => exact .neither rfl rfl
  | cons first others =>
      by_cases escape : first = '\\'
      · subst escape
        cases others with
        | nil => exact .neither rfl rfl
        | cons second others =>
            by_cases coded : second = 'u'
            · subst coded
              have unit := codeUnit_followed ⟨others, (place.after '\\').after 'u'⟩
              rw [Cursor.followed] at unit
              simp only [trailingUnit, Cursor.followed, List.cons_append, Cursor.next_cons]
              cases unit with
              | @both unit after closer short long =>
                  simp only [short, long, ok_bind]
                  cases isTrailing unit with
                  | false => exact .neither rfl rfl
                  | true => exact .both (Nat.lt_succ_of_lt (Nat.lt_succ_of_lt closer)) rfl rfl
              | neither short long =>
                  simp only [short, long, error_bind]
                  exact .neither rfl rfl
            · simp only [Cursor.followed, List.cons_append]
              have refused (others : List Char) :
                  trailingUnit ⟨'\\' :: second :: others, place⟩ =
                    .error (Cursor.faultAhead ⟨second :: others, place.after '\\'⟩
                      .unfinishedSurrogate) := by
                simp [trailingUnit, coded]
              exact .neither (refused _) (refused _)
      · have refused (others : List Char) :
            trailingUnit ⟨first :: others, place⟩ =
              .error (Cursor.faultAhead ⟨first :: others, place⟩ .unfinishedSurrogate) := by
          simp [trailingUnit, escape]
        exact .neither (refused _) (refused _)

private theorem characterOfUnit_followed (unit : Nat) (cursor : Cursor) :
    TokenAlike (cursor.left.length + 1) (characterOfUnit unit cursor)
      (characterOfUnit unit cursor.followed) := by
  unfold characterOfUnit
  split_ifs
  · exact .neither rfl rfl
  · cases trailingUnit_followed cursor with
    | both closer short long =>
        rw [short, long]
        exact .both (Nat.lt_succ_of_lt closer) rfl rfl
    | neither short long =>
        rw [short, long]
        exact .neither rfl rfl
  · exact .both (Nat.lt_succ_self _) rfl rfl

/-- A step over an escape, from what is known of the steps behind it. -/
private theorem readFrom_escape_followed {fuel more : Nat} (collected : List Char)
    {others : List Char}
    (place : Position)
    (later : ∀ (collected : List Char) (cursor : Cursor), cursor.left.length < fuel →
      cursor.left.length < more → TokenAlike (cursor.left.length + 1)
        (readFrom fuel collected cursor) (readFrom more collected cursor.followed))
    (enough : others.length < fuel) (plenty : others.length < more) :
    TokenAlike (others.length + 1) (readFrom (fuel + 1) collected ⟨'\\' :: others, place⟩)
      (readFrom (more + 1) collected ⟨'\\' :: (others ++ ['\r']), place⟩) := by
  cases others with
  | nil => exact .neither rfl rfl
  | cons letter others =>
      simp only [List.length_cons] at enough plenty
      by_cases coded : letter = 'u'
      · subst coded
        have unit := codeUnit_followed ⟨others, (place.after '\\').after 'u'⟩
        rw [Cursor.followed] at unit
        simp only [readFrom, List.cons_append, Cursor.next_cons]
        cases unit with
        | neither short long =>
            simp only [short, long, error_bind]
            exact .neither rfl rfl
        | @both unit after closer short long =>
            simp only [short, long, ok_bind]
            cases characterOfUnit_followed unit after with
            | neither short long =>
                simp only [short, long, error_bind]
                exact .neither rfl rfl
            | @both character behind shorter short long =>
                simp only [short, long, ok_bind, List.length_cons] at closer ⊢
                have step := later (character :: collected) behind (by omega) (by omega)
                exact step.mono (by omega)
      · rw [List.cons_append]
        cases escaped : shortEscape letter with
        | none =>
            have refused (fuel : Nat) (others : List Char) :
                readFrom (fuel + 1) collected ⟨'\\' :: letter :: others, place⟩ =
                  .error (Cursor.faultAhead ⟨letter :: others, place.after '\\'⟩
                    .invalidEscape) := by
              simp only [readFrom, escaped]
              rfl
            exact .neither (refused _ _) (refused _ _)
        | some character =>
            have taken (fuel : Nat) (others : List Char) :
                readFrom (fuel + 1) collected ⟨'\\' :: letter :: others, place⟩ =
                  readFrom fuel (character :: collected)
                    ⟨others, (place.after '\\').after letter⟩ := by
              simp only [readFrom, escaped]
              rfl
            have step := later (character :: collected) ⟨others, (place.after '\\').after letter⟩
              (Nat.lt_of_succ_lt enough) (Nat.lt_of_succ_lt plenty)
            rw [taken, taken]
            exact step.mono (Nat.le_succ _)

/-- Reading a string takes a character in each step, so any fuel above their number will do. -/
private theorem readFrom_followed {fuel more : Nat} (collected : List Char) (cursor : Cursor)
    (enough : cursor.left.length < fuel) (plenty : cursor.left.length < more) :
    TokenAlike (cursor.left.length + 1) (readFrom fuel collected cursor)
      (readFrom more collected cursor.followed) := by
  induction fuel generalizing more collected cursor with
  | zero => exact absurd enough (Nat.not_lt_zero _)
  | succ fuel ih =>
      obtain ⟨more, rfl⟩ := Nat.exists_eq_succ_of_ne_zero (Nat.ne_zero_of_lt plenty)
      obtain ⟨left, place⟩ := cursor
      cases left with
      | nil => exact .neither rfl rfl
      | cons first others =>
          have less : others.length < fuel := Nat.lt_of_succ_lt_succ enough
          have fewer : others.length < more := Nat.lt_of_succ_lt_succ plenty
          rw [Cursor.followed, List.cons_append]
          by_cases quote : first = '"'
          · subst quote
            exact .both (Nat.lt_succ_of_lt (Nat.lt_succ_self _)) rfl rfl
          · by_cases escape : first = '\\'
            · subst escape
              have step := readFrom_escape_followed collected place
                (fun collected cursor => ih collected cursor) less fewer
              exact step.mono (Nat.le_succ _)
            · by_cases control : first.toNat < 0x20
              · have refused (fuel : Nat) (others : List Char) :
                    readFrom (fuel + 1) collected ⟨first :: others, place⟩ =
                      .error (Cursor.faultAhead ⟨first :: others, place⟩ .controlCharacter) := by
                  simp [readFrom, escape, control]
                exact .neither (refused _ _) (refused _ _)
              · have step := ih (first :: collected) ⟨others, place.after first⟩ less fewer
                rw [readFrom_plain quote escape control, readFrom_plain quote escape control]
                exact step.mono (Nat.le_succ _)

/-- A string literal means the same and ends at the same place in front of a return. -/
theorem scan_alike (cursor : Cursor) :
    Alike (cursor.left.length + 1) (scan cursor).outcome (scan cursor.followed).outcome := by
  have room : cursor.left.length < cursor.followed.left.length + 1 := by
    rw [Cursor.followed, List.length_append]
    omega
  have read := readFrom_followed [] cursor (Nat.lt_succ_self cursor.left.length) room
  unfold scan
  cases read with
  | both closer short long =>
      simp only [short, long]
      exact .both closer rfl rfl
  | neither short long =>
      simp only [short, long]
      exact .neither rfl rfl

end StringLiteral

end SdkClients.Json
