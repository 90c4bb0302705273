import SdkClients.Json.Printer
import SdkClients.Proofs.Decimal.Rounding
import SdkClients.Proofs.Json.Numerals

set_option autoImplicit false

/-!
Printed numbers are number literals.

The shortest digits of a real do not start with a zero, and the layout of documents always writes a
point or an exponent behind them. An integer is printed as its digits alone, so the two kinds of
numbers never share a text.
-/

namespace SdkClients

/-! ### The shortest digits -/

namespace Decimal

private theorem stripZeros_pos (steps : Nat) {number : Scientific} (positive : 0 < number.digits) :
    0 < (stripZeros steps number).digits := by
  induction steps generalizing number with
  | zero => exact positive
  | succ steps ih =>
      rw [stripZeros]
      by_cases trailing : number.digits % 10 = 0
      · rw [if_pos trailing]
        apply ih
        show 0 < number.digits / 10
        omega
      · rw [if_neg trailing]
        exact positive

private theorem onGrid_pos {number : Binary64} {grid : Int} {found : Scientific}
    (identified : onGrid number grid = some found) : 0 < found.digits := by
  unfold onGrid at identified
  simp only at identified
  split at identified
  · next below _ =>
      have positive := of_decide_eq_true (Bool.and_eq_true_iff.mp below).1
      split at identified
      · cases identified
        exact positive
      · cases identified
        exact Nat.succ_pos _
      · cases identified
        split
        · exact positive
        · exact Nat.succ_pos _
  · next below _ =>
      cases identified
      exact of_decide_eq_true (Bool.and_eq_true_iff.mp below).1
  · cases identified
    exact Nat.succ_pos _
  · cases identified

private theorem shortest_pos {number : Binary64} (nonzero : number.isZero = false) :
    0 < (shortest number).digits := by
  have significand : 0 < number.significand := by
    have pattern : number.pattern ≠ 0 := by simpa [Binary64.isZero] using nonzero
    unfold Binary64.significand
    split
    · exact Nat.pos_of_ne_zero pattern
    · exact Nat.add_pos_left (Nat.two_pow_pos 52) _
  unfold shortest
  simp only
  apply stripZeros_pos
  cases found : (List.range 17).findSome? fun count =>
      onGrid number (scale number - (count + 1 : Nat)) with
  | none =>
      exact Nat.mul_pos (Nat.mul_pos significand (Nat.two_pow_pos _)) (Nat.pow_pos (by decide))
  | some candidate =>
      obtain ⟨count, -, identified⟩ := List.exists_of_findSome?_eq_some found
      exact onGrid_pos identified

private theorem isZero_absolute (number : Binary64) : number.absolute.isZero = number.isZero := by
  have small : number.pattern < Nat.pow 2 63 := Nat.mod_lt _ (Nat.two_pow_pos 63)
  unfold Binary64.isZero Binary64.absolute
  rw [Binary64.pattern_ofPattern false small]

end Decimal

/-! ### Digits in order -/

private theorem head_toDigits {number : Nat} (positive : 0 < number) :
    ∀ character ∈ (Nat.toDigits 10 number).head?, character ≠ '0' := by
  induction number using Nat.strongRecOn with
  | ind number ih =>
      by_cases single : number < 10
      · rw [Nat.toDigits_of_lt_base single]
        rintro character same rfl
        have zero : number.digitChar = '0' := Option.some.inj same
        rw [Nat.digitChar_eq_zero] at zero
        omega
      · have leading := ih (number / 10) (by omega) (by omega)
        have split := Nat.toDigits_of_base_le (b := 10) (by decide) (Nat.le_of_not_lt single)
        obtain ⟨first, others, same⟩ :=
          List.exists_cons_of_ne_nil (Nat.toDigits_ne_nil (n := number / 10) (b := 10))
        rw [same] at split leading
        rw [split]
        exact leading

namespace Json

/-- The decimal digits of a number. -/
def Digits.ofNat (number : Nat) : Digits where
  characters := Nat.toDigits 10 number
  filled := Nat.toDigits_ne_nil
  decimal := fun _ member => Nat.isDigit_of_mem_toDigits (by decide) (by decide) member

/-- Digits in front of the point, the first of which is not zero. -/
private theorem bare_of_leading {digits : List Char}
    (leading : ∀ character ∈ digits.head?, character ≠ '0') :
    digits.head? = some '0' → digits = ['0'] :=
  fun zero => absurd rfl (leading '0' zero)

def Digits.zero : Digits := .ofNat 0

/-! ### Integers -/

/-- The spelling of an integer by its sign and magnitude. -/
def Spelling.ofInteger (negative : Bool) (magnitude : Nat) : Spelling where
  negative := negative
  whole := .ofNat magnitude
  bare := by
    cases magnitude with
    | zero => exact fun _ => rfl
    | succ magnitude => exact bare_of_leading (head_toDigits (Nat.succ_pos magnitude))
  fraction := none
  exponent := none

theorem text_ofInteger (negative : Bool) (magnitude : Nat) :
    (Spelling.ofInteger negative magnitude).text =
      (if negative then ['-'] else []) ++ Nat.toDigits 10 magnitude := by
  have unsigned : (Spelling.ofInteger negative magnitude).unsignedText =
      Nat.toDigits 10 magnitude := List.append_nil _
  unfold Spelling.text
  rw [unsigned]
  cases negative <;> rfl

theorem toList_toString_int (value : Int) :
    (toString value).toList = (Spelling.ofInteger (value < 0) value.natAbs).text := by
  rw [text_ofInteger]
  cases value with
  | ofNat magnitude =>
      have plain : toString (Int.ofNat magnitude) = toString magnitude := rfl
      rw [plain, Nat.toString_eq_ofList_toDigits, String.toList_ofList]
      rfl
  | negSucc magnitude =>
      have signed : toString (Int.negSucc magnitude) = "-" ++ toString (magnitude + 1) := rfl
      have digits : (toString (magnitude + 1)).toList = Nat.toDigits 10 (magnitude + 1) := by
        rw [Nat.toString_eq_ofList_toDigits, String.toList_ofList]
      have below : decide (Int.negSucc magnitude < 0) = true :=
        decide_eq_true (Int.negSucc_lt_zero magnitude)
      rw [signed, String.toList_append, digits, below]
      rfl

/-! ### Reals -/

/-- A literal with a point or an exponent, which is never that of an integer. -/
def Spelling.IsReal (spelling : Spelling) : Prop :=
  spelling.fraction.isSome = true ∨ spelling.exponent.isSome = true

private theorem toList_positional (layout : Decimal.Layout) (ending : layout.wholeEnd = ".0")
    (digits : Digits) (leading : ∀ character ∈ digits.characters.head?, character ≠ '0')
    (point : Int) :
    ∃ spelling : Spelling, spelling.negative = false ∧ spelling.IsReal ∧
      spelling.text = (layout.positional digits.characters point).toList := by
  have zeros : ∀ count, ∀ character ∈ List.replicate count '0', character.isDigit = true := by
    intro count character member
    rw [List.eq_of_mem_replicate member]
    rfl
  unfold Decimal.Layout.positional
  by_cases small : point ≤ 0
  · -- the digits stand behind the point, after as many zeros as are needed
    let fraction : Digits := ⟨List.replicate (-point).toNat '0' ++ digits.characters,
      List.append_ne_nil_of_right_ne_nil _ digits.filled,
      List.forall_mem_append.mpr ⟨zeros _, digits.decimal⟩⟩
    refine ⟨⟨false, .zero, fun _ => rfl, some fraction, none⟩, rfl, .inl rfl, ?_⟩
    rw [if_pos small, String.toList_ofList]
    simp [Spelling.text, Spelling.unsignedText, Spelling.fractionText, Spelling.exponentText,
      Digits.zero, Digits.ofNat, fraction]
  · rw [if_neg small]
    by_cases short : digits.characters.length ≤ point.toNat
    · -- the digits and further zeros stand in front of the point
      let whole : Digits := ⟨digits.characters ++
          List.replicate (point.toNat - digits.characters.length) '0',
        List.append_ne_nil_of_left_ne_nil digits.filled _,
        List.forall_mem_append.mpr ⟨digits.decimal, zeros _⟩⟩
      obtain ⟨first, others, same, -⟩ := digits.exists_cons
      have wholeLeading : ∀ character ∈ whole.characters.head?, character ≠ '0' := by
        rw [same] at leading
        simp only [whole, same]
        exact leading
      refine ⟨⟨false, whole, bare_of_leading wholeLeading, some .zero, none⟩, rfl, .inl rfl, ?_⟩
      rw [if_pos short, String.toList_append, String.toList_ofList, ending]
      simp [Spelling.text, Spelling.unsignedText, Spelling.fractionText, Spelling.exponentText,
        Digits.zero, Digits.ofNat, whole]
    · -- the point stands among the digits
      have inside : 0 < point.toNat := by omega
      let whole : Digits := ⟨digits.characters.take point.toNat, by
          intro none
          have length := congrArg List.length none
          rw [List.length_take, List.length_nil] at length
          omega,
        fun character member => digits.decimal character (List.mem_of_mem_take member)⟩
      let fraction : Digits := ⟨digits.characters.drop point.toNat, by
          intro none
          have length := congrArg List.length none
          rw [List.length_drop, List.length_nil] at length
          omega,
        fun character member => digits.decimal character (List.mem_of_mem_drop member)⟩
      have wholeLeading : ∀ character ∈ whole.characters.head?, character ≠ '0' := by
        simp only [whole, List.head?_take, Nat.ne_of_gt inside, if_false]
        exact leading
      refine ⟨⟨false, whole, bare_of_leading wholeLeading, some fraction, none⟩, rfl, .inl rfl, ?_⟩
      rw [if_neg short, String.toList_ofList]
      simp [Spelling.text, Spelling.unsignedText, Spelling.fractionText, Spelling.exponentText,
        whole, fraction]

private theorem toList_scientific (layout : Decimal.Layout) (rising : layout.risingMark = "e+")
    (falling : layout.fallingMark = "e-") (digits : Digits)
    (leading : ∀ character ∈ digits.characters.head?, character ≠ '0') (exponent : Int) :
    ∃ spelling : Spelling, spelling.negative = false ∧ spelling.IsReal ∧
      spelling.text = (layout.scientific digits.characters exponent).toList := by
  obtain ⟨first, others, same, isDigit⟩ := digits.exists_cons
  have single : first ≠ '0' := by
    rw [same] at leading
    exact leading first rfl
  let whole : Digits := ⟨[first], List.cons_ne_nil _ _, by simpa using isDigit⟩
  have bare : whole.characters.head? = some '0' → whole.characters = ['0'] :=
    bare_of_leading fun character member => by
      cases member
      exact single
  have mark : (if exponent < 0 then layout.fallingMark else layout.risingMark).toList =
      ['e', Spelling.exponentSign (exponent < 0)] := by
    rw [rising, falling]
    by_cases negative : exponent < 0 <;> simp [Spelling.exponentSign, negative]
  unfold Decimal.Layout.scientific
  rw [same]
  cases others with
  | nil =>
      refine ⟨⟨false, whole, bare, none, some (exponent < 0, .ofNat exponent.natAbs)⟩, rfl,
        .inr rfl, ?_⟩
      simp [Spelling.text, Spelling.unsignedText, Spelling.fractionText, Spelling.exponentText,
        Digits.ofNat, whole, mark]
  | cons second others =>
      let fraction : Digits := ⟨second :: others, List.cons_ne_nil _ _, by
        intro character member
        apply digits.decimal
        rw [same]
        exact List.mem_cons_of_mem first member⟩
      refine ⟨⟨false, whole, bare, some fraction, some (exponent < 0, .ofNat exponent.natAbs)⟩, rfl,
        .inl rfl, ?_⟩
      simp [Spelling.text, Spelling.unsignedText, Spelling.fractionText, Spelling.exponentText,
        Digits.ofNat, whole, fraction, mark]

/-- A finite real is printed as a literal with a point or an exponent. -/
theorem exists_spelling_of_isFinite {number : Binary64} (finite : number.isFinite = true) :
    ∃ spelling : Spelling, spelling.IsReal ∧ spelling.text = (renderReal number).toList := by
  have magnitude : ∃ spelling : Spelling, spelling.negative = false ∧ spelling.IsReal ∧
      spelling.text = (if number.isZero then "0" ++ Decimal.documentLayout.wholeEnd
        else Decimal.documentLayout.write (Decimal.shortest number.absolute)).toList := by
    cases zero : number.isZero with
    | true =>
        refine ⟨⟨false, .zero, fun _ => rfl, some .zero, none⟩, rfl, .inl rfl, ?_⟩
        rw [if_pos rfl, String.toList_append]
        rfl
    | false =>
        have positive := Decimal.shortest_pos ((Decimal.isZero_absolute number).trans zero)
        have leading := head_toDigits positive
        rw [if_neg (by decide)]
        unfold Decimal.Layout.write
        simp only
        split
        · exact toList_positional _ rfl (.ofNat _) leading _
        · exact toList_scientific _ rfl rfl (.ofNat _) leading _
  obtain ⟨spelling, unsigned, real, text⟩ := magnitude
  unfold renderReal Decimal.Layout.render
  simp only [finite, if_true]
  cases signed : number.isNegative with
  | false => exact ⟨spelling, real, text⟩
  | true =>
      refine ⟨{ spelling with negative := true }, real, ?_⟩
      have unsignedText : spelling.text = spelling.unsignedText := by
        unfold Spelling.text
        rw [unsigned]
        rfl
      rw [if_pos rfl, String.toList_append, ← text, unsignedText]
      rfl

end Json

end SdkClients
