import SdkClients.Json.Reader
import SdkClients.Proofs.DistinctKeys
import SdkClients.Proofs.Json.Integers
import SdkClients.Proofs.Json.Strings
import SdkClients.Proofs.Numbers

set_option autoImplicit false

/-!
Printed values are read back.

A value without blanks is read as its text goes: brackets, commas and colons stand where the reader
looks for them, strings come back as they were, and a number stands for what its own text is read
as. The reader has fuel for three calls at each character, which is enough, and brackets do not
stand deeper than the value nests.
-/

namespace SdkClients.Json

/-! ### Values that are read again -/

/-- The real that the text of a real is read as, unless it is out of range. -/
def rereadReal (number : Binary64) : Option Binary64 :=
  match Value.parse (renderReal number) with
  | .ok (.number (.real again)) => some again
  | _ => none

namespace Value

mutual

/-- The value with every real replaced by what its text is read as. -/
def reread : Value → Option Value
  | .number (.real binary) => (rereadReal binary).map fun again => .number (.real again)
  | .array items => (rereadItems items).map .array
  | .object entries => (rereadEntries entries).map .object
  | value => some value

def rereadItems : List Value → Option (List Value)
  | [] => some []
  | item :: others => do
      let value ← item.reread
      let values ← rereadItems others
      return value :: values

def rereadEntries : List (String × Value) → Option (List (String × Value))
  | [] => some []
  | (key, value) :: others => do
      let value ← value.reread
      let entries ← rereadEntries others
      return (key, value) :: entries

end

end Value

/-! ### Blanks -/

def IsBlank (character : Char) : Prop :=
  character = ' ' ∨ character = '\n' ∨ character = '\t' ∨ character = '\r'

private theorem skipBlanks_of_head {left : List Char} {place : Position}
    (head : ∀ character ∈ left.head?, ¬ IsBlank character) :
    Cursor.skipBlanks ⟨left, place⟩ = ⟨left, place⟩ := by
  cases left with
  | nil => rfl
  | cons character others =>
      have solid : ¬ IsBlank character := head character rfl
      show Cursor.skipBlanksFrom (character :: others) place = _
      rw [Cursor.skipBlanksFrom]
      exact if_neg solid

private theorem Stops.solid {rest : List Char} (stops : Stops rest) :
    ∀ character ∈ rest.head?, ¬ IsBlank character := by
  intro character first
  rcases stops character first with rfl | rfl | rfl <;> simp [IsBlank]

/-- The text of a value starts neither with a blank nor with a bracket that closes an array. -/
def Opens (text : List Char) : Prop :=
  ∃ first others, text = first :: others ∧ ¬ IsBlank first ∧ first ≠ ']'

private theorem Opens.skipBlanks {text : List Char} (opens : Opens text) (rest : List Char)
    (place : Position) : Cursor.skipBlanks ⟨text ++ rest, place⟩ = ⟨text ++ rest, place⟩ := by
  obtain ⟨first, others, rfl, solid, -⟩ := opens
  apply skipBlanks_of_head
  intro character head
  cases head
  exact solid

/-! ### Single texts -/

/-- A text of a value with at most so many levels of brackets: it is read to its end wherever
there is fuel for it and room for its levels. -/
def ReadsAs (text : List Char) (levels : Nat) (result : Option Value) : Prop :=
  ∀ (fuel depth : Nat) (rest : List Char) (place : Position), 3 * text.length ≤ fuel →
    depth + levels ≤ Reader.depthLimit → Stops rest →
    ∃ node, Reader.nodeAt fuel depth ⟨text ++ rest, place⟩ =
        (node, some ⟨rest, place.afterAll text⟩) ∧ node.value.toOption = result

/-- Fuel for a text that is not empty. -/
private theorem exists_fuel {text : List Char} {fuel : Nat} (filled : text ≠ [])
    (enough : 3 * text.length ≤ fuel) : ∃ less, fuel = less + 1 := by
  have positive := List.length_pos_of_ne_nil filled
  exact ⟨fuel - 1, by omega⟩

private theorem readsAs_word {letters : List Char} {result : Value} (node : Option Position → Node)
    (filled : letters ≠ []) (meaning : ∀ place, (node place).value = .ok result)
    (opened : ∀ (fuel depth : Nat) (rest : List Char) (place : Position),
      Reader.nodeAt (fuel + 1) depth ⟨letters ++ rest, place⟩ =
        (node (some (place.afterAll letters)), some ⟨rest, place.afterAll letters⟩)) :
    ReadsAs letters 0 (some result) := by
  intro fuel depth rest place enough _ _
  obtain ⟨less, rfl⟩ := exists_fuel filled enough
  exact ⟨_, opened less depth rest place, by rw [meaning]; rfl⟩

private theorem readsAs_null : ReadsAs ['n', 'u', 'l', 'l'] 0 (some .null) := by
  refine readsAs_word .null (by decide) (fun _ => rfl) fun fuel depth rest place => ?_
  rw [List.cons_append, Reader.nodeAt]
  rfl

private theorem readsAs_true : ReadsAs ['t', 'r', 'u', 'e'] 0 (some (.bool true)) := by
  refine readsAs_word (.bool true) (by decide) (fun _ => rfl) fun fuel depth rest place => ?_
  rw [List.cons_append, Reader.nodeAt]
  rfl

private theorem readsAs_false : ReadsAs ['f', 'a', 'l', 's', 'e'] 0 (some (.bool false)) := by
  refine readsAs_word (.bool false) (by decide) (fun _ => rfl) fun fuel depth rest place => ?_
  rw [List.cons_append, Reader.nodeAt]
  rfl

private theorem readsAs_string (text : String) :
    ReadsAs (renderString text).toList 0 (some (.string text)) := by
  intro fuel depth rest place enough _ _
  rw [StringLiteral.toList_renderString] at enough ⊢
  obtain ⟨less, rfl⟩ := exists_fuel (List.cons_ne_nil _ _) enough
  have scanned := StringLiteral.scan_body text rest (place.after '"')
  refine ⟨.string text (some (place.afterAll ('"' :: (StringLiteral.body text ++ ['"'])))), ?_, rfl⟩
  rw [List.cons_append, List.append_assoc, Reader.nodeAt, Cursor.next_cons]
  simp only [List.cons_append, List.nil_append, scanned]
  rfl

private theorem Spelling.head_text (spelling : Spelling) :
    ∃ first others, spelling.text = first :: others ∧ Reader.startsNumber first = true := by
  obtain ⟨first, others, same, isDigit⟩ := spelling.head_unsignedText
  unfold Spelling.text
  rw [same]
  cases spelling.negative with
  | true => exact ⟨'-', first :: others, rfl, rfl⟩
  | false =>
      refine ⟨first, others, rfl, ?_⟩
      rw [Reader.startsNumber, isDigit, Bool.or_true]

private theorem nodeAt_of_startsNumber {first : Char} (starts : Reader.startsNumber first = true)
    (fuel depth : Nat) (others : List Char) (place : Position) :
    Reader.nodeAt (fuel + 1) depth ⟨first :: others, place⟩ =
      Reader.scalar .number (NumberLiteral.scan ⟨first :: others, place⟩) := by
  rw [Reader.nodeAt]
  split
  · next empty => cases empty
  · next word =>
      cases word
      cases starts
  · next word =>
      cases word
      cases starts
  · next word =>
      cases word
      cases starts
  · next quote =>
      cases quote
      cases starts
  · next bracket =>
      cases bracket
      cases starts
  · next brace =>
      cases brace
      cases starts
  · next same =>
      cases same
      rw [if_pos starts]

theorem readsAs_spelling (spelling : Spelling) :
    ReadsAs spelling.text 0 (spelling.number.map .number) := by
  intro fuel depth rest place enough _ stops
  obtain ⟨first, others, same, starts⟩ := spelling.head_text
  obtain ⟨less, rfl⟩ := exists_fuel (by rw [same]; exact List.cons_ne_nil _ _) enough
  obtain ⟨skip, read⟩ := spelling.scan_scannedAs stops place
  have opened : Reader.nodeAt (less + 1) depth ⟨spelling.text ++ rest, place⟩ =
      Reader.scalar .number (NumberLiteral.scan ⟨spelling.text ++ rest, place⟩) := by
    rw [same]
    exact nodeAt_of_startsNumber starts less depth (others ++ rest) place
  rw [opened, ← read]
  unfold Reader.scalar
  rw [skip]
  cases NumberLiteral.scan ⟨spelling.text ++ rest, place⟩ with
  | mk meaning after =>
      cases meaning with
      | ok number => exact ⟨_, rfl, rfl⟩
      | error malformed => exact ⟨_, rfl, rfl⟩

/-! ### Items -/

/-- A value whose printed text is read back. -/
structure Piece (value : Value) : Prop where
  opens : Opens value.render.toList
  reads : ReadsAs value.render.toList value.height value.reread

/-- The text that follows an item: the items after it and the closing bracket. -/
def itemsText : List Value → List Char
  | [] => [']']
  | item :: others => ',' :: (item.render.toList ++ itemsText others)

private theorem stops_itemsText (items : List Value) (rest : List Char) :
    Stops (itemsText items ++ rest) := by
  intro character first
  cases items with
  | nil =>
      cases first
      exact .inr (.inl rfl)
  | cons item others =>
      cases first
      exact .inl rfl

def ReadsItems (items : List Value) : Prop :=
  ∀ (fuel depth : Nat) (rest : List Char) (place : Position),
    3 * (itemsText items).length ≤ fuel →
    depth + Value.heightOfItems items ≤ Reader.depthLimit →
    ∃ read, Reader.laterItems fuel depth ⟨itemsText items ++ rest, place⟩ =
        (read, some ⟨rest, place.afterAll (itemsText items)⟩) ∧
      ∀ position, (read.values position).toOption = Value.rereadItems items

theorem values_item_toOption (mark : Option Position) (surplus : Surplus) (node : Node)
    (rest : Items) (position : Nat) :
    ((Items.item mark surplus node rest).values position).toOption =
      node.value.toOption.bind fun value =>
        (rest.values (position + 1)).toOption.map (value :: ·) := by
  rw [Items.values]
  cases node.value with
  | error unreadable => rfl
  | ok value => cases rest.values (position + 1) <;> rfl

private theorem itemAt_reads {item : Value} {others : List Value} (piece : Piece item)
    (later : ReadsItems others) (fuel depth : Nat) (rest : List Char) (place : Position)
    (enough : 3 * (item.render.toList ++ itemsText others).length ≤ fuel)
    (shallow : depth + Value.heightOfItems (item :: others) ≤ Reader.depthLimit) :
    ∃ read, Reader.itemAt fuel depth ⟨item.render.toList ++ itemsText others ++ rest, place⟩ =
        (read, some ⟨rest, place.afterAll (item.render.toList ++ itemsText others)⟩) ∧
      ∀ position, (read.values position).toOption = Value.rereadItems (item :: others) := by
  have filled : 0 < item.render.toList.length := by
    obtain ⟨first, tail, same, -, -⟩ := piece.opens
    rw [same]
    exact Nat.succ_pos _
  have ending : 0 < (itemsText others).length := by
    cases others <;> exact Nat.succ_pos _
  rw [List.length_append] at enough
  rw [Value.heightOfItems] at shallow
  obtain ⟨less, rfl⟩ := Nat.exists_eq_add_one.mpr (show 0 < fuel by omega)
  have stops := stops_itemsText others rest
  obtain ⟨node, read, meaning⟩ := piece.reads less depth (itemsText others ++ rest) place
    (by omega) (by omega) stops
  obtain ⟨tail, readTail, meanings⟩ := later less depth rest
    (place.afterAll item.render.toList) (by omega) (by omega)
  refine ⟨.item (some place)
    (Reader.surplusAhead ⟨item.render.toList ++ itemsText others ++ rest, place⟩
      .trailingCharacters) node tail, ?_, ?_⟩
  · rw [Reader.itemAt]
    simp only [List.append_assoc, read, skipBlanks_of_head stops.solid, readTail,
      Position.afterAll_append]
  · intro position
    rw [values_item_toOption, meaning, meanings, Value.rereadItems]
    cases item.reread with
    | none => rfl
    | some value => cases Value.rereadItems others <;> rfl

private theorem firstItem_of_opens {text : List Char} (opens : Opens text) (fuel depth : Nat)
    (rest : List Char) (place : Position) :
    Reader.firstItem (fuel + 1) depth ⟨text ++ rest, place⟩ =
      Reader.itemAt fuel depth ⟨text ++ rest, place⟩ := by
  obtain ⟨first, others, rfl, -, unclosed⟩ := opens
  rw [Reader.firstItem]
  simp only [List.cons_append]
  split
  · next empty => cases empty
  · next closing =>
      cases closing
      exact absurd rfl unclosed
  · rfl

private theorem laterItems_of_opens {text : List Char} (opens : Opens text) (fuel depth : Nat)
    (rest : List Char) (place : Position) :
    Reader.laterItems (fuel + 1) depth ⟨',' :: (text ++ rest), place⟩ =
      Reader.itemAt fuel depth ⟨text ++ rest, place.after ','⟩ := by
  rw [Reader.laterItems, Cursor.next_cons, opens.skipBlanks]
  obtain ⟨first, others, rfl, -, unclosed⟩ := opens
  simp only [List.cons_append]
  split
  · next empty => cases empty
  · next closing =>
      cases closing
      exact absurd rfl unclosed
  · rfl

private theorem readsItems {items : List Value} (pieces : ∀ item ∈ items, Piece item) :
    ReadsItems items := by
  induction items with
  | nil =>
      intro fuel depth rest place enough _
      obtain ⟨less, rfl⟩ := exists_fuel (by decide) enough
      refine ⟨.done (some (place.after ']')), ?_, fun _ => rfl⟩
      rw [itemsText, List.cons_append, Reader.laterItems]
      rfl
  | cons item others ih =>
      obtain ⟨piece, laterPieces⟩ := List.forall_mem_cons.mp pieces
      intro fuel depth rest place enough shallow
      rw [itemsText, List.length_cons] at enough
      obtain ⟨less, rfl⟩ := Nat.exists_eq_add_one.mpr (show 0 < fuel by omega)
      obtain ⟨read, opened, meanings⟩ := itemAt_reads piece (ih laterPieces) less depth rest
        (place.after ',') (by omega) shallow
      refine ⟨read, ?_, meanings⟩
      rw [itemsText, List.cons_append, List.append_assoc, laterItems_of_opens piece.opens,
        ← List.append_assoc, Position.afterAll_cons]
      exact opened

/-- The text behind the opening bracket of an array. -/
def arrayText : List Value → List Char
  | [] => [']']
  | item :: others => item.render.toList ++ itemsText others

private theorem firstItem_reads {items : List Value} (pieces : ∀ item ∈ items, Piece item)
    (fuel depth : Nat) (rest : List Char) (place : Position)
    (enough : 3 * (arrayText items).length < fuel)
    (shallow : depth + Value.heightOfItems items ≤ Reader.depthLimit) :
    ∃ read, Reader.firstItem fuel depth (Cursor.skipBlanks ⟨arrayText items ++ rest, place⟩) =
        (read, some ⟨rest, place.afterAll (arrayText items)⟩) ∧
      (read.values 0).toOption = Value.rereadItems items := by
  obtain ⟨less, rfl⟩ := Nat.exists_eq_add_one.mpr (Nat.zero_lt_of_lt enough)
  cases items with
  | nil =>
      refine ⟨.done (some (place.after ']')), ?_, rfl⟩
      rw [arrayText, List.cons_append, skipBlanks_of_head (by simp [IsBlank]), Reader.firstItem]
      rfl
  | cons item others =>
      obtain ⟨piece, laterPieces⟩ := List.forall_mem_cons.mp pieces
      obtain ⟨read, opened, meanings⟩ := itemAt_reads piece (readsItems laterPieces) less depth
        rest place (Nat.le_of_lt_succ enough) shallow
      refine ⟨read, ?_, meanings 0⟩
      rw [arrayText, List.append_assoc, piece.opens.skipBlanks, firstItem_of_opens piece.opens,
        ← List.append_assoc]
      exact opened

/-! ### Entries -/

def entryText (key : String) (value : Value) : List Char :=
  (renderString key).toList ++ ':' :: value.render.toList

/-- The text that follows an entry: the entries after it and the closing bracket. -/
def entriesText : List (String × Value) → List Char
  | [] => ['\x7d']
  | (key, value) :: others => ',' :: (entryText key value ++ entriesText others)

private theorem stops_entriesText (entries : List (String × Value)) (rest : List Char) :
    Stops (entriesText entries ++ rest) := by
  intro character first
  cases entries with
  | nil =>
      cases first
      exact .inr (.inr rfl)
  | cons entry others =>
      cases first
      exact .inl rfl

def ReadsEntries (entries : List (String × Value)) : Prop :=
  ∀ (fuel depth : Nat) (rest : List Char) (place : Position),
    3 * (entriesText entries).length ≤ fuel →
    depth + Value.heightOfEntries entries ≤ Reader.depthLimit →
    ∃ read, Reader.laterEntries fuel depth ⟨entriesText entries ++ rest, place⟩ =
        (read, some ⟨rest, place.afterAll (entriesText entries)⟩) ∧
      read.pairs.toOption = Value.rereadEntries entries

theorem pairs_entry_toOption (mark keyMark : Option Position) (key : String) (node : Node)
    (rest : Entries) :
    (Entries.entry mark (.ok key) keyMark node rest).pairs.toOption =
      node.value.toOption.bind fun value => rest.pairs.toOption.map ((key, value) :: ·) := by
  rw [Entries.pairs]
  cases node.value with
  | error unreadable => rfl
  | ok value => cases rest.pairs <;> rfl

private theorem entryAt_reads (key : String) {value : Value} {others : List (String × Value)}
    (piece : Piece value) (later : ReadsEntries others) (fuel depth : Nat) (rest : List Char)
    (mark : Option Position) (place : Position)
    (enough : 3 * (entryText key value ++ entriesText others).length ≤ fuel)
    (shallow : depth + Value.heightOfEntries ((key, value) :: others) ≤ Reader.depthLimit) :
    ∃ read, Reader.entryAt fuel depth mark
        ⟨entryText key value ++ entriesText others ++ rest, place⟩ =
        (read, some ⟨rest, place.afterAll (entryText key value ++ entriesText others)⟩) ∧
      read.pairs.toOption = Value.rereadEntries ((key, value) :: others) := by
  rw [entryText, StringLiteral.toList_renderString] at enough ⊢
  simp only [List.length_append, List.length_cons] at enough
  rw [Value.heightOfEntries] at shallow
  obtain ⟨less, rfl⟩ := Nat.exists_eq_add_one.mpr (show 0 < fuel by omega)
  have scanned := StringLiteral.scan_body key
    (':' :: (value.render.toList ++ (entriesText others ++ rest))) (place.after '"')
  generalize colon : (place.after '"').afterAll (StringLiteral.body key ++ ['"']) = keyMark
    at scanned
  have stops := stops_entriesText others rest
  obtain ⟨node, read, meaning⟩ := piece.reads less depth (entriesText others ++ rest)
    (keyMark.after ':') (by omega) (by omega) stops
  obtain ⟨tail, readTail, meanings⟩ := later less depth rest
    ((keyMark.after ':').afterAll value.render.toList) (by omega) (by omega)
  refine ⟨.entry mark (.ok key) (some keyMark) node tail, ?_, ?_⟩
  · have solid : Cursor.skipBlanks
        ⟨':' :: (value.render.toList ++ (entriesText others ++ rest)), keyMark⟩ =
        ⟨':' :: (value.render.toList ++ (entriesText others ++ rest)), keyMark⟩ :=
      skipBlanks_of_head (by simp [IsBlank])
    have blanks := piece.opens.skipBlanks (entriesText others ++ rest) (keyMark.after ':')
    rw [Reader.entryAt]
    simp only [List.append_assoc, List.cons_append, List.nil_append, Cursor.next_cons, scanned,
      solid, blanks, read, skipBlanks_of_head stops.solid, readTail]
    simp only [← colon, Position.afterAll_append, Position.afterAll_cons, Position.afterAll_nil]
  · rw [pairs_entry_toOption, meaning, meanings, Value.rereadEntries]
    cases value.reread with
    | none => rfl
    | some value => cases Value.rereadEntries others <;> rfl

private theorem firstEntry_of_entryText (key : String) (value : Value) (fuel depth : Nat)
    (rest : List Char) (place : Position) :
    Reader.firstEntry (fuel + 1) depth (Cursor.skipBlanks ⟨entryText key value ++ rest, place⟩) =
      Reader.entryAt fuel depth (some place) ⟨entryText key value ++ rest, place⟩ := by
  rw [entryText, StringLiteral.toList_renderString, List.cons_append, List.cons_append,
    skipBlanks_of_head (by simp [IsBlank]), Reader.firstEntry]
  rfl

private theorem laterEntries_of_entryText (key : String) (value : Value) (fuel depth : Nat)
    (rest : List Char) (place : Position) :
    Reader.laterEntries (fuel + 1) depth ⟨',' :: (entryText key value ++ rest), place⟩ =
      Reader.entryAt fuel depth (some place) ⟨entryText key value ++ rest, place.after ','⟩ := by
  rw [entryText, StringLiteral.toList_renderString, List.cons_append, List.cons_append,
    Reader.laterEntries, Cursor.next_cons, skipBlanks_of_head (by simp [IsBlank])]
  rfl

private theorem readsEntries {entries : List (String × Value)}
    (pieces : ∀ entry ∈ entries, Piece entry.2) : ReadsEntries entries := by
  induction entries with
  | nil =>
      intro fuel depth rest place enough _
      obtain ⟨less, rfl⟩ := exists_fuel (by decide) enough
      refine ⟨.done (some (place.after '\x7d')), ?_, rfl⟩
      rw [entriesText, List.cons_append, Reader.laterEntries]
      rfl
  | cons entry others ih =>
      obtain ⟨piece, laterPieces⟩ := List.forall_mem_cons.mp pieces
      intro fuel depth rest place enough shallow
      rw [entriesText, List.length_cons] at enough
      obtain ⟨less, rfl⟩ := Nat.exists_eq_add_one.mpr (show 0 < fuel by omega)
      obtain ⟨read, opened, meanings⟩ := entryAt_reads entry.1 piece (ih laterPieces) less depth
        rest (some place) (place.after ',') (by omega) shallow
      refine ⟨read, ?_, meanings⟩
      rw [entriesText, List.cons_append, List.append_assoc, laterEntries_of_entryText,
        ← List.append_assoc, Position.afterAll_cons]
      exact opened

/-- The text behind the opening bracket of an object. -/
def objectText : List (String × Value) → List Char
  | [] => ['\x7d']
  | (key, value) :: others => entryText key value ++ entriesText others

private theorem firstEntry_reads {entries : List (String × Value)}
    (pieces : ∀ entry ∈ entries, Piece entry.2) (fuel depth : Nat) (rest : List Char)
    (place : Position) (enough : 3 * (objectText entries).length < fuel)
    (shallow : depth + Value.heightOfEntries entries ≤ Reader.depthLimit) :
    ∃ read, Reader.firstEntry fuel depth (Cursor.skipBlanks ⟨objectText entries ++ rest, place⟩) =
        (read, some ⟨rest, place.afterAll (objectText entries)⟩) ∧
      read.pairs.toOption = Value.rereadEntries entries := by
  obtain ⟨less, rfl⟩ := Nat.exists_eq_add_one.mpr (Nat.zero_lt_of_lt enough)
  cases entries with
  | nil =>
      refine ⟨.done (some (place.after '\x7d')), ?_, rfl⟩
      rw [objectText, List.cons_append, skipBlanks_of_head (by simp [IsBlank]), Reader.firstEntry]
      rfl
  | cons entry others =>
      obtain ⟨piece, laterPieces⟩ := List.forall_mem_cons.mp pieces
      obtain ⟨read, opened, meanings⟩ := entryAt_reads entry.1 piece (readsEntries laterPieces)
        less depth rest (some place) place (Nat.le_of_lt_succ enough) shallow
      refine ⟨read, ?_, meanings⟩
      rw [objectText, List.append_assoc, firstEntry_of_entryText, ← List.append_assoc]
      exact opened

/-! ### Whole values -/

private theorem toList_intercalate_items (item : Value) (others : List Value) :
    (String.intercalate "," ((item :: others).map Value.render)).toList ++ [']'] =
      item.render.toList ++ itemsText others := by
  induction others generalizing item with
  | nil => simp [itemsText]
  | cons next others ih =>
      rw [List.map_cons, List.map_cons, String.intercalate_cons_cons, ← List.map_cons, itemsText,
        ← ih next]
      simp

private theorem toList_array (items : List Value) :
    (Value.array items).render.toList = '[' :: arrayText items := by
  rw [Value.render, Value.renderItems_eq_map]
  unfold enclose
  cases items with
  | nil => rfl
  | cons item others =>
      rw [arrayText, ← toList_intercalate_items]
      simp only [String.toList_append, List.append_assoc]
      rfl

private theorem toList_intercalate_entries (key : String) (value : Value)
    (others : List (String × Value)) :
    (String.intercalate "," (((key, value) :: others).map fun entry =>
        renderString entry.1 ++ ":" ++ entry.2.render)).toList ++ ['\x7d'] =
      entryText key value ++ entriesText others := by
  induction others generalizing key value with
  | nil => simp [entriesText, entryText]
  | cons next others ih =>
      obtain ⟨nextKey, nextValue⟩ := next
      have later := ih nextKey nextValue
      rw [List.map_cons] at later
      rw [List.map_cons, List.map_cons, String.intercalate_cons_cons, entriesText, ← later]
      simp [entryText]

private theorem toList_object (entries : List (String × Value)) :
    (Value.object entries).render.toList = '\x7b' :: objectText entries := by
  rw [Value.render, Value.renderEntries_eq_map]
  unfold enclose
  cases entries with
  | nil => rfl
  | cons entry others =>
      rw [objectText, ← toList_intercalate_entries]
      simp only [String.toList_append, List.append_assoc]
      rfl

private theorem limited_of_lt {depth : Nat} (room : depth < Reader.depthLimit) (cursor : Cursor)
    (node : Node) : Reader.limited depth cursor node = node := if_pos room

private theorem piece_array {items : List Value} (pieces : ∀ item ∈ items, Piece item) :
    Piece (.array items) := by
  refine ⟨⟨'[', _, toList_array items, by simp [IsBlank], by decide⟩, ?_⟩
  intro fuel depth rest place enough shallow _
  rw [toList_array] at enough ⊢
  rw [Value.height] at shallow
  obtain ⟨less, rfl⟩ := exists_fuel (List.cons_ne_nil _ _) enough
  have room : depth < Reader.depthLimit := by omega
  rw [List.length_cons] at enough
  obtain ⟨read, opened, meanings⟩ := firstItem_reads pieces less (depth + 1) rest
    (place.after '[') (by omega) (by omega)
  refine ⟨.array (some place) read, ?_, ?_⟩
  · rw [List.cons_append, Reader.nodeAt, Cursor.next_cons, opened]
    simp only [limited_of_lt room]
    rfl
  · rw [Node.value, Value.reread, ← meanings]
    cases read.values 0 <;> rfl

private theorem piece_object {entries : List (String × Value)}
    (pieces : ∀ entry ∈ entries, Piece entry.2) : Piece (.object entries) := by
  refine ⟨⟨'\x7b', _, toList_object entries, by simp [IsBlank], by decide⟩, ?_⟩
  intro fuel depth rest place enough shallow _
  rw [toList_object] at enough ⊢
  rw [Value.height] at shallow
  obtain ⟨less, rfl⟩ := exists_fuel (List.cons_ne_nil _ _) enough
  have room : depth < Reader.depthLimit := by omega
  rw [List.length_cons] at enough
  obtain ⟨read, opened, meanings⟩ := firstEntry_reads pieces less (depth + 1) rest
    (place.after '\x7b') (by omega) (by omega)
  refine ⟨.object (some place) read, ?_, ?_⟩
  · rw [List.cons_append, Reader.nodeAt, Cursor.next_cons, opened]
    simp only [limited_of_lt room]
    rfl
  · rw [Node.value, Value.reread, ← meanings]
    cases read.pairs <;> rfl

theorem parse_of_reads {text : String} {levels : Nat} {result : Option Value}
    (opens : Opens text.toList) (reads : ReadsAs text.toList levels result)
    (shallow : levels ≤ Reader.depthLimit) :
    (Value.parse text).toOption = result.map Value.collapse := by
  have blanks := opens.skipBlanks [] .start
  rw [List.append_nil] at blanks
  obtain ⟨node, read, meaning⟩ := reads (3 * text.toList.length + 3) 0 [] .start
    (Nat.le_add_right _ 3) (by omega) stops_nil
  rw [List.append_nil] at read
  have document : readDocument text = (node, some ⟨[], Position.start.afterAll text.toList⟩) := by
    unfold readDocument Cursor.ofText
    rw [blanks]
    exact read
  unfold Value.parse
  rw [document, ← meaning]
  simp only [Option.map_some]
  cases node.value with
  | error unreadable => rfl
  | ok value => rfl

theorem Spelling.opens_text (spelling : Spelling) : Opens spelling.text := by
  obtain ⟨first, others, same, starts⟩ := spelling.head_text
  refine ⟨first, others, same, ?_, ?_⟩
  · rintro (rfl | rfl | rfl | rfl) <;> cases starts
  · rintro rfl
    cases starts

private theorem readsAs_integer {value : Int} (read : (Number.integer value).IsRead) :
    ReadsAs (toString value).toList 0 (some (.number (.integer value))) := by
  have reads := readsAs_spelling (.ofInteger (value < 0) value.natAbs)
  rw [Spelling.number_ofInteger_of_isRead read, ← toList_toString_int] at reads
  exact reads

private theorem rereadReal_of_parse {number : Binary64} {found : Option Number}
    (parsed : (Value.parse (renderReal number)).toOption = found.map .number)
    (real : ∀ again, found = some again → ∃ binary, again = .real binary) :
    (rereadReal number).map (fun again => Value.number (.real again)) = found.map .number := by
  unfold rereadReal
  cases found with
  | none =>
      cases unread : Value.parse (renderReal number) with
      | error malformed => rfl
      | ok value =>
          rw [unread] at parsed
          cases parsed
  | some again =>
      obtain ⟨binary, rfl⟩ := real again rfl
      rw [toOption_eq_some_iff.mp parsed]
      rfl

private theorem readsAs_real {number : Binary64} (finite : number.isFinite = true) :
    Opens (renderReal number).toList ∧
      ReadsAs (renderReal number).toList 0
        ((rereadReal number).map fun again => .number (.real again)) := by
  obtain ⟨spelling, real, text⟩ := exists_spelling_of_isFinite finite
  have opens := spelling.opens_text
  have reads := readsAs_spelling spelling
  rw [text] at opens reads
  have parsed := parse_of_reads opens reads (Nat.zero_le _)
  rw [Option.map_map] at parsed
  rw [rereadReal_of_parse parsed fun _ => spelling.number_of_isReal real]
  exact ⟨opens, reads⟩

/-- A value with numbers as they are read is printed and read back up to its reals. -/
theorem piece {value : Value} (read : ∀ number ∈ value.numbers, number.IsRead) : Piece value := by
  induction value with
  | null => exact ⟨⟨'n', _, rfl, by simp [IsBlank], by decide⟩, readsAs_null⟩
  | bool value =>
      cases value with
      | true => exact ⟨⟨'t', _, rfl, by simp [IsBlank], by decide⟩, readsAs_true⟩
      | false => exact ⟨⟨'f', _, rfl, by simp [IsBlank], by decide⟩, readsAs_false⟩
  | number number =>
      have fits := read number (List.mem_singleton_self number)
      cases number with
      | integer value =>
          have opens := (Spelling.ofInteger (value < 0) value.natAbs).opens_text
          rw [← toList_toString_int] at opens
          exact ⟨opens, readsAs_integer fits⟩
      | real value =>
          obtain ⟨opens, reads⟩ := readsAs_real fits
          exact ⟨opens, reads⟩
  | string text =>
      exact ⟨⟨'"', _, StringLiteral.toList_renderString text, by simp [IsBlank], by decide⟩,
        readsAs_string text⟩
  | array items ih =>
      have each := Value.forall_numbers_array_iff.mp read
      exact piece_array fun item member => ih item member (each item member)
  | object entries ih =>
      have each := Value.forall_numbers_object_iff.mp read
      exact piece_object fun entry member => ih entry member (each entry member)

end SdkClients.Json
