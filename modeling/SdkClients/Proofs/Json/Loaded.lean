import SdkClients.Proofs.Json.Finished
import SdkClients.Proofs.Json.Rereading
import SdkClients.Proofs.Pointwise

set_option autoImplicit false

/-!
Values that texts are read as.

No object of such a value repeats a key, brackets do not stand deeper than the reader allows, and
its integers fit 64 bits. A value with distinct keys and room for its brackets is printed and read
again up to its numbers; one that was itself read loses at most reals.
-/

namespace SdkClients.Json

/-! ### Numbers and brackets -/

private theorem NumberLiteral.isRead_of_finish {numeral : Numeral} {cursor : Cursor}
    {number : Number}
    (read : (finish numeral cursor).read = .ok number) : number.IsRead := by
  have ending : (finish numeral cursor).read = (exponent cursor.next).read.bind (fun found =>
        Numeral.value { numeral with exponent := found.1 } found.2.place) ∨
      (finish numeral cursor).read = numeral.value cursor.place := by
    unfold finish
    split
    · exact .inl rfl
    · exact .inl rfl
    · exact .inr rfl
  rcases ending with marked | plain
  · rw [marked] at read
    obtain ⟨found, -, value⟩ := bind_eq_ok_iff.mp read
    exact Numeral.isRead_of_value value
  · rw [plain] at read
    exact Numeral.isRead_of_value read

private theorem NumberLiteral.isRead_of_afterWhole {negative : Bool} {whole : List Nat}
    {cursor : Cursor}
    {number : Number} (read : (afterWhole negative whole cursor).read = .ok number) :
    number.IsRead := by
  unfold afterWhole at read
  split at read
  · simp only at read
    split at read
    · split at read <;> cases read
    · exact isRead_of_finish read
  · exact isRead_of_finish read

private theorem NumberLiteral.isRead_of_scan {cursor : Cursor} {number : Number}
    (read : (scan cursor).read = .ok number) : number.IsRead := by
  have signed : ∃ negative place, (unsigned negative place).read = .ok number := by
    unfold scan at read
    split at read
    · exact ⟨_, _, read⟩
    · exact ⟨_, _, read⟩
  obtain ⟨negative, place, read⟩ := signed
  unfold unsigned at read
  split at read
  · cases read
  · split at read
    · cases read
    · exact isRead_of_afterWhole read
  · split at read
    · exact isRead_of_afterWhole read
    · cases read

/-- A value that can stand inside so many brackets, with numbers as they are read. -/
structure Value.FitsAt (depth : Nat) (value : Value) : Prop where
  shallow : depth + value.height ≤ Reader.depthLimit
  read : ∀ number ∈ value.numbers, number.IsRead

namespace Value

private theorem fitsAt_array_iff {depth : Nat} {items : List Value} :
    (Value.array items).FitsAt depth ↔
      depth < Reader.depthLimit ∧ ∀ item ∈ items, item.FitsAt (depth + 1) := by
  have heights : depth + (heightOfItems items + 1) ≤ Reader.depthLimit ↔
      depth < Reader.depthLimit ∧ ∀ item ∈ items, item.height ≤ Reader.depthLimit - (depth + 1) := by
    rw [← heightOfItems_le_iff]
    omega
  constructor
  · intro fits
    obtain ⟨room, shallow⟩ := heights.mp fits.shallow
    refine ⟨room, fun item member => ⟨?_, forall_numbers_array_iff.mp fits.read item member⟩⟩
    have height := shallow item member
    omega
  · intro fits
    obtain ⟨room, each⟩ := fits
    constructor
    · apply heights.mpr
      refine ⟨room, fun item member => ?_⟩
      have shallow := (each item member).shallow
      omega
    · exact forall_numbers_array_iff.mpr fun item member => (each item member).read

private theorem fitsAt_object_iff {depth : Nat} {entries : List (String × Value)} :
    (Value.object entries).FitsAt depth ↔
      depth < Reader.depthLimit ∧ ∀ entry ∈ entries, entry.2.FitsAt (depth + 1) := by
  have heights : depth + (heightOfEntries entries + 1) ≤ Reader.depthLimit ↔
      depth < Reader.depthLimit ∧
        ∀ entry ∈ entries, entry.2.height ≤ Reader.depthLimit - (depth + 1) := by
    rw [← heightOfEntries_le_iff]
    omega
  constructor
  · intro fits
    obtain ⟨room, shallow⟩ := heights.mp fits.shallow
    refine ⟨room, fun entry member => ⟨?_, forall_numbers_object_iff.mp fits.read entry member⟩⟩
    have height := shallow entry member
    omega
  · intro fits
    obtain ⟨room, each⟩ := fits
    constructor
    · apply heights.mpr
      refine ⟨room, fun entry member => ?_⟩
      have shallow := (each entry member).shallow
      omega
    · exact forall_numbers_object_iff.mpr fun entry member => (each entry member).read

private theorem fitsAt_of_numberless {depth : Nat} {value : Value}
    (room : depth ≤ Reader.depthLimit)
    (flat : value.height = 0) (numberless : value.numbers = []) : value.FitsAt depth := by
  constructor
  · rw [flat]
    exact room
  · rw [numberless]
    exact List.forall_mem_nil _

end Value

/-! ### Reading -/

namespace Reader

private theorem value_scalar {α : Type} {make : α → Option Position → Node} {scanned : Scanned α}
    {value : Value} (read : (scalar make scanned).1.value = .ok value) :
    ∃ meaning place, scanned.read = .ok meaning ∧ (make meaning place).value = .ok value := by
  unfold scalar at read
  split at read
  · next meaning after found _ => exact ⟨meaning, _, found, read⟩
  · next meaning skip found _ => exact ⟨meaning, _, found, read⟩
  · cases read
  · cases read

private theorem value_word {node : Option Position → Node} {letters : List Char} {cursor : Cursor}
    {value : Value} (read : (word node letters cursor).1.value = .ok value) :
    ∃ place, (node place).value = .ok value := by
  unfold word at read
  split at read
  · exact ⟨_, read⟩
  · cases read

private theorem value_limited {depth : Nat} {cursor : Cursor} {node : Node} {value : Value}
    (read : (limited depth cursor node).value = .ok value) :
    depth < depthLimit ∧ node.value = .ok value := by
  unfold limited at read
  split at read
  · next room => exact ⟨room, read⟩
  · cases read

private theorem values_item_eq_ok {mark : Option Position} {surplus : Surplus} {node : Node}
    {rest : Items}
    {position : Nat} {values : List Value}
    (read : (Items.item mark surplus node rest).values position = .ok values) :
    ∃ value others, node.value = .ok value ∧ rest.values (position + 1) = .ok others ∧
      values = value :: others := by
  rw [Items.values] at read
  obtain ⟨value, own, read⟩ := bind_eq_ok_iff.mp read
  obtain ⟨others, later, same⟩ := bind_eq_ok_iff.mp read
  exact ⟨value, others, mapError_eq_ok_iff.mp own, later, (pure_eq_ok_iff.mp same).symm⟩

private theorem pairs_entry_eq_ok {mark keyMark : Option Position} {key : Except Malformed String}
    {node : Node} {rest : Entries} {pairs : List (String × Value)}
    (read : (Entries.entry mark key keyMark node rest).pairs = .ok pairs) :
    ∃ name value others, node.value = .ok value ∧ rest.pairs = .ok others ∧
      pairs = (name, value) :: others := by
  rw [Entries.pairs] at read
  obtain ⟨name, -, read⟩ := bind_eq_ok_iff.mp read
  obtain ⟨value, own, read⟩ := bind_eq_ok_iff.mp read
  obtain ⟨others, later, same⟩ := bind_eq_ok_iff.mp read
  exact ⟨name, value, others, mapError_eq_ok_iff.mp own, later, (pure_eq_ok_iff.mp same).symm⟩

private theorem pairs_noColon_ne_ok {mark keyMark : Option Position} {key : Except Malformed String}
    {malformed : Malformed} {pairs : List (String × Value)} :
    (Entries.noColon mark key keyMark malformed).pairs ≠ .ok pairs := by
  rw [Entries.pairs]
  cases key <;> intro read <;> cases read

mutual

private theorem nodeAt_fits : ∀ (fuel depth : Nat) (cursor : Cursor) (value : Value),
    depth ≤ depthLimit → (nodeAt fuel depth cursor).1.value = .ok value → value.FitsAt depth
  | 0, _, _, _, _, read => by
      rw [nodeAt] at read
      cases read
  | fuel + 1, depth, cursor, value, room, read => by
      rw [nodeAt] at read
      split at read
      · cases read
      · obtain ⟨place, null⟩ := value_word read
        cases null
        exact Value.fitsAt_of_numberless room rfl rfl
      · obtain ⟨place, bool⟩ := value_word read
        cases bool
        exact Value.fitsAt_of_numberless room rfl rfl
      · obtain ⟨place, bool⟩ := value_word read
        cases bool
        exact Value.fitsAt_of_numberless room rfl rfl
      · obtain ⟨text, place, -, string⟩ := value_scalar read
        cases string
        exact Value.fitsAt_of_numberless room rfl rfl
      · obtain ⟨below, array⟩ := value_limited read
        rw [Node.value] at array
        obtain ⟨items, values, rfl⟩ := map_eq_ok_iff.mp array
        exact Value.fitsAt_array_iff.mpr
          ⟨below, firstItem_fits fuel (depth + 1) _ 0 items below values⟩
      · obtain ⟨below, object⟩ := value_limited read
        rw [Node.value] at object
        obtain ⟨entries, pairs, rfl⟩ := map_eq_ok_iff.mp object
        exact Value.fitsAt_object_iff.mpr
          ⟨below, firstEntry_fits fuel (depth + 1) _ entries below pairs⟩
      · split at read
        · obtain ⟨number, place, found, same⟩ := value_scalar read
          cases same
          refine ⟨room, ?_⟩
          intro other member
          rw [List.mem_singleton.mp member]
          exact NumberLiteral.isRead_of_scan found
        · cases read

private theorem firstItem_fits : ∀ (fuel depth : Nat) (cursor : Cursor) (position : Nat)
    (values : List Value), depth ≤ depthLimit →
    (firstItem fuel depth cursor).1.values position = .ok values →
    ∀ value ∈ values, value.FitsAt depth
  | 0, _, _, _, _, _, read => by
      rw [firstItem] at read
      cases read
      exact List.forall_mem_nil _
  | fuel + 1, depth, cursor, position, values, room, read => by
      rw [firstItem] at read
      split at read
      · cases read
      · cases read
        exact List.forall_mem_nil _
      · exact itemAt_fits fuel depth cursor position values room read

private theorem itemAt_fits : ∀ (fuel depth : Nat) (cursor : Cursor) (position : Nat)
    (values : List Value), depth ≤ depthLimit →
    (itemAt fuel depth cursor).1.values position = .ok values →
    ∀ value ∈ values, value.FitsAt depth
  | 0, _, _, _, _, _, read => by
      rw [itemAt] at read
      cases read
      exact List.forall_mem_nil _
  | fuel + 1, depth, cursor, position, values, room, read => by
      rw [itemAt] at read
      simp only at read
      split at read
      · next node opened =>
          obtain ⟨value, others, own, later, rfl⟩ := values_item_eq_ok read
          cases later
          have first := nodeAt_fits fuel depth cursor value room (by rw [opened]; exact own)
          exact List.forall_mem_cons.mpr ⟨first, List.forall_mem_nil _⟩
      · next node after opened =>
          obtain ⟨value, others, own, later, rfl⟩ := values_item_eq_ok read
          have first := nodeAt_fits fuel depth cursor value room (by rw [opened]; exact own)
          exact List.forall_mem_cons.mpr ⟨first,
            laterItems_fits fuel depth after.skipBlanks (position + 1) others room later⟩

private theorem laterItems_fits : ∀ (fuel depth : Nat) (cursor : Cursor) (position : Nat)
    (values : List Value), depth ≤ depthLimit →
    (laterItems fuel depth cursor).1.values position = .ok values →
    ∀ value ∈ values, value.FitsAt depth
  | 0, _, _, _, _, _, read => by
      rw [laterItems] at read
      cases read
      exact List.forall_mem_nil _
  | fuel + 1, depth, cursor, position, values, room, read => by
      rw [laterItems] at read
      split at read
      · cases read
      · cases read
        exact List.forall_mem_nil _
      · simp only at read
        split at read
        · cases read
        · cases read
        · exact itemAt_fits fuel depth cursor.next.skipBlanks position values room read
      · cases read

private theorem firstEntry_fits : ∀ (fuel depth : Nat) (cursor : Cursor)
    (pairs : List (String × Value)), depth ≤ depthLimit →
    (firstEntry fuel depth cursor).1.pairs = .ok pairs →
    ∀ entry ∈ pairs, entry.2.FitsAt depth
  | 0, _, _, _, _, read => by
      rw [firstEntry] at read
      cases read
      exact List.forall_mem_nil _
  | fuel + 1, depth, cursor, pairs, room, read => by
      rw [firstEntry] at read
      split at read
      · cases read
      · cases read
        exact List.forall_mem_nil _
      · exact entryAt_fits fuel depth _ cursor pairs room read
      · cases read

private theorem entryAt_fits : ∀ (fuel depth : Nat) (mark : Option Position) (cursor : Cursor)
    (pairs : List (String × Value)), depth ≤ depthLimit →
    (entryAt fuel depth mark cursor).1.pairs = .ok pairs →
    ∀ entry ∈ pairs, entry.2.FitsAt depth
  | 0, _, _, _, _, _, read => by
      rw [entryAt] at read
      cases read
      exact List.forall_mem_nil _
  | fuel + 1, depth, mark, cursor, pairs, room, read => by
      rw [entryAt] at read
      simp only at read
      split at read
      · cases read
      · split at read
        · split at read
          · next node opened =>
              obtain ⟨name, value, others, own, later, rfl⟩ := pairs_entry_eq_ok read
              cases later
              have first := nodeAt_fits fuel depth _ value room (by rw [opened]; exact own)
              exact List.forall_mem_cons.mpr ⟨first, List.forall_mem_nil _⟩
          · next node after opened =>
              obtain ⟨name, value, others, own, later, rfl⟩ := pairs_entry_eq_ok read
              have first := nodeAt_fits fuel depth _ value room (by rw [opened]; exact own)
              exact List.forall_mem_cons.mpr ⟨first,
                laterEntries_fits fuel depth after.skipBlanks others room later⟩
        · exact absurd read pairs_noColon_ne_ok
        · exact absurd read pairs_noColon_ne_ok
        · exact absurd read pairs_noColon_ne_ok

private theorem laterEntries_fits : ∀ (fuel depth : Nat) (cursor : Cursor)
    (pairs : List (String × Value)), depth ≤ depthLimit →
    (laterEntries fuel depth cursor).1.pairs = .ok pairs →
    ∀ entry ∈ pairs, entry.2.FitsAt depth
  | 0, _, _, _, _, read => by
      rw [laterEntries] at read
      cases read
      exact List.forall_mem_nil _
  | fuel + 1, depth, cursor, pairs, room, read => by
      rw [laterEntries] at read
      simp only at read
      split at read
      · cases read
      · cases read
        exact List.forall_mem_nil _
      · split at read
        · cases read
        · exact entryAt_fits fuel depth _ _ pairs room read
        · cases read
        · cases read
      · cases read

end

end Reader

/-! ### Collapsed keys -/

/-- Integers are always what their text is read as. -/
def Number.IsKept : Number → Prop
  | .integer _ => True
  | .real binary => rereadReal binary = some binary

instance : DecidablePred Number.IsKept
  | .integer _ => instDecidableTrue
  | .real binary => inferInstanceAs (Decidable (rereadReal binary = some binary))

namespace Value

theorem distinctKeys_collapse (value : Value) : value.collapse.DistinctKeys := by
  induction value with
  | null => exact .null
  | bool value => exact .bool value
  | number number => exact .number number
  | string text => exact .string text
  | array items ih =>
      rw [collapse, collapseItems_eq_map]
      exact .array (List.forall_mem_map.mpr ih)
  | object entries ih =>
      rw [collapse, collapseEntries_eq_map]
      refine .object (Keyed.distinct_ofList _) fun entry member => ?_
      obtain ⟨original, listed, rfl⟩ := List.mem_map.mp (Keyed.ofList_subset _ member)
      exact ih original listed

private theorem FitsAt.collapse {depth : Nat} {value : Value} (fits : value.FitsAt depth) :
    value.collapse.FitsAt depth := by
  induction value generalizing depth with
  | null | bool | number | string => exact fits
  | array items ih =>
      obtain ⟨room, each⟩ := fitsAt_array_iff.mp fits
      rw [Value.collapse, collapseItems_eq_map]
      apply fitsAt_array_iff.mpr
      exact ⟨room, List.forall_mem_map.mpr fun item member => ih item member (each item member)⟩
  | object entries ih =>
      obtain ⟨room, each⟩ := fitsAt_object_iff.mp fits
      rw [Value.collapse, collapseEntries_eq_map]
      apply fitsAt_object_iff.mpr
      refine ⟨room, fun entry member => ?_⟩
      obtain ⟨original, listed, rfl⟩ := List.mem_map.mp (Keyed.ofList_subset _ member)
      exact ih original listed (each original listed)

/-- What a complete text is read as. -/
structure Loaded (value : Value) : Prop where
  distinct : value.DistinctKeys
  fits : value.FitsAt 0

private theorem FitsAt.of_succ {depth : Nat} {value : Value} (fits : value.FitsAt (depth + 1)) :
    value.FitsAt depth := by
  have shallow := fits.shallow
  exact ⟨by omega, fits.read⟩

theorem Loaded.item {items : List Value} (loaded : (Value.array items).Loaded) {item : Value}
    (member : item ∈ items) : item.Loaded := by
  cases loaded.distinct with
  | array distinct =>
      have fits := (fitsAt_array_iff.mp loaded.fits).2 item member
      exact ⟨distinct item member, fits.of_succ⟩

theorem Loaded.entry {entries : List (String × Value)} (loaded : (Value.object entries).Loaded)
    {entry : String × Value} (member : entry ∈ entries) : entry.2.Loaded := by
  cases loaded.distinct with
  | object _ distinct =>
      have fits := (fitsAt_object_iff.mp loaded.fits).2 entry member
      exact ⟨distinct entry member, fits.of_succ⟩

theorem loaded_of_parse {text : String} {value : Value} (read : parse text = .ok value) :
    value.Loaded := by
  have found : ∃ original, (readDocument text).1.value = .ok original ∧
      value = original.collapse := by
    unfold parse at read
    simp only at read
    split at read
    · cases read
    · next original own _ =>
        cases read
        exact ⟨original, own, rfl⟩
    · next original cursor own _ =>
        split at read
        · cases read
          exact ⟨original, own, rfl⟩
        · cases read
  obtain ⟨original, own, rfl⟩ := found
  have fits := Reader.nodeAt_fits _ 0 _ original (Nat.zero_le _) own
  exact ⟨distinctKeys_collapse original, fits.collapse⟩

/-! ### Reading again -/

private theorem rereadItems_eq_mapM (items : List Value) :
    rereadItems items = items.mapM reread := by
  induction items with
  | nil => rfl
  | cons item items ih => rw [rereadItems, ih, List.mapM_cons]

private theorem rereadEntries_eq_mapM (entries : List (String × Value)) :
    rereadEntries entries =
      entries.mapM fun entry => entry.2.reread.map fun again => (entry.1, again) := by
  induction entries with
  | nil => rfl
  | cons entry entries ih =>
      obtain ⟨key, value⟩ := entry
      rw [rereadEntries, ih, List.mapM_cons]
      cases value.reread <;> rfl

private theorem reread_array_iff {items : List Value} {again : Value} :
    (Value.array items).reread = some again ↔ ∃ others,
      List.Forall₂ (fun item other => item.reread = some other) items others ∧
        Value.array others = again := by
  rw [reread, rereadItems_eq_mapM, Option.map_eq_some_iff]
  simp only [mapM_eq_some_iff]

private theorem reread_object_iff {entries : List (String × Value)} {again : Value} :
    (Value.object entries).reread = some again ↔ ∃ others,
      List.Forall₂ (fun entry other => entry.1 = other.1 ∧ entry.2.reread = some other.2)
        entries others ∧ Value.object others = again := by
  have each : ∀ (entry : String × Value) (other : String × Value),
      (entry.2.reread.map fun again => (entry.1, again)) = some other ↔
        entry.1 = other.1 ∧ entry.2.reread = some other.2 := by
    intro entry other
    rw [Option.map_eq_some_iff]
    constructor
    · rintro ⟨again, found, rfl⟩
      exact ⟨rfl, found⟩
    · intro same
      exact ⟨other.2, same.2, Prod.ext same.1 rfl⟩
  rw [reread, rereadEntries_eq_mapM, Option.map_eq_some_iff]
  simp only [mapM_eq_some_iff, each]

private theorem distinctKeys_of_reread {value again : Value} (distinct : value.DistinctKeys)
    (reread : value.reread = some again) : again.DistinctKeys := by
  induction distinct generalizing again with
  | null => cases reread; exact .null
  | bool value => cases reread; exact .bool value
  | string text => cases reread; exact .string text
  | number number =>
      cases number with
      | integer value => cases reread; exact .number (.integer value)
      | real value =>
          obtain ⟨binary, -, rfl⟩ := Option.map_eq_some_iff.mp reread
          exact .number (.real binary)
  | array _ ih =>
      obtain ⟨others, related, rfl⟩ := reread_array_iff.mp reread
      refine .array fun other member => ?_
      obtain ⟨item, paired⟩ := exists_mem_zip_of_forall₂ related.flip member
      exact ih item (List.of_mem_zip paired).2 (List.forall₂_zip related.flip paired)
  | object distinct _ ih =>
      obtain ⟨others, related, rfl⟩ := reread_object_iff.mp reread
      have keys := map_eq_of_forall₂ (fun _ _ same => And.left same) related
      refine .object ?_ fun other member => ?_
      · unfold Keyed.Distinct at distinct ⊢
        rw [← keys]
        exact distinct
      · obtain ⟨entry, paired⟩ := exists_mem_zip_of_forall₂ related.flip member
        exact ih entry (List.of_mem_zip paired).2 (List.forall₂_zip related.flip paired).2

/-- Every real of a value is what its text is read as. -/
def RealsKept (value : Value) : Prop := ∀ number ∈ value.numbers, number.IsKept

instance (value : Value) : Decidable value.RealsKept :=
  inferInstanceAs (Decidable (∀ number ∈ value.numbers, number.IsKept))

theorem reread_eq_self_iff {value : Value} : value.reread = some value ↔ value.RealsKept := by
  unfold RealsKept
  induction value with
  | null | bool | string => simp [reread, numbers]
  | number number => cases number <;> simp [reread, numbers, Number.IsKept]
  | array items ih =>
      have each : (Value.array items).reread = some (.array items) ↔
          ∀ item ∈ items, item.reread = some item := by
        rw [reread_array_iff]
        constructor
        · rintro ⟨others, related, same⟩
          cases same
          exact List.forall₂_same.mp related
        · intro each
          exact ⟨items, List.forall₂_same.mpr each, rfl⟩
      rw [each, forall_numbers_array_iff]
      exact forall₂_congr ih
  | object entries ih =>
      have each : (Value.object entries).reread = some (.object entries) ↔
          ∀ entry ∈ entries, entry.2.reread = some entry.2 := by
        rw [reread_object_iff]
        constructor
        · rintro ⟨others, related, same⟩
          cases same
          exact fun entry member => (List.forall₂_same.mp related entry member).2
        · intro each
          exact ⟨entries, List.forall₂_same.mpr fun entry member => ⟨rfl, each entry member⟩, rfl⟩
      rw [each, forall_numbers_object_iff]
      exact forall₂_congr ih

/-- A loaded value is printed and read back with every real read again. -/
theorem Loaded.parse_render {value : Value} (loaded : value.Loaded) :
    (parse value.render).toOption = value.reread := by
  have printed := piece loaded.fits.read
  have shallow := loaded.fits.shallow
  rw [Nat.zero_add] at shallow
  rw [parse_of_reads printed.opens printed.reads shallow]
  cases reread : value.reread with
  | none => rfl
  | some again =>
      rw [Option.map_some, (distinctKeys_of_reread loaded.distinct reread).collapse_eq]

end Value

end SdkClients.Json
