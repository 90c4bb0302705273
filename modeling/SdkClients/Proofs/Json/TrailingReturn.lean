import SdkClients.Proofs.Json.FollowedTokens
import SdkClients.Proofs.Json.Loaded

set_option autoImplicit false

/-!
A carriage return at the end of a text.

It is a blank, so a text is read as the same value with it and without it, or neither is read. The
two readings go side by side: they stand before the same characters, until nothing but blanks is
left of both, and each has fuel for what is left of the shorter text.
-/

namespace SdkClients.Json

/-! ### Blanks -/

/-- Two cursors behind the same blanks. The second one has a return behind all that is left, unless
the return was one of the blanks and nothing is left. -/
inductive Trails : Cursor → Cursor → Prop
  | filled {first : Char} {others : List Char} {place : Position} :
      Trails ⟨first :: others, place⟩ (Cursor.followed ⟨first :: others, place⟩)
  | ended {place other : Position} : Trails ⟨[], place⟩ ⟨[], other⟩

private theorem Trails.head? {short long : Cursor} (trails : Trails short long) :
    long.left.head? = short.left.head? := by
  cases trails <;> rfl

private theorem Trails.isEmpty {short long : Cursor} (trails : Trails short long) :
    long.left.isEmpty = short.left.isEmpty := by
  cases trails <;> rfl

private theorem Trails.length_le {short long : Cursor} (trails : Trails short long) :
    short.left.length ≤ long.left.length := by
  cases trails with
  | filled => simp [Cursor.followed]
  | ended => exact Nat.le_refl _

private theorem Trails.next {short long : Cursor} (trails : Trails short long) {character : Char}
    (head : short.left.head? = some character) : long.next = short.next.followed := by
  cases trails with
  | filled => rfl
  | ended => cases head

namespace Cursor

private theorem length_next_lt {cursor : Cursor} {character : Char}
    (head : cursor.left.head? = some character) :
    cursor.next.left.length < cursor.left.length := by
  obtain ⟨left, place⟩ := cursor
  obtain ⟨others, rfl⟩ := List.head?_eq_some_iff.mp head
  exact Nat.lt_succ_self _

private theorem trails_skipBlanks (cursor : Cursor) :
    Trails cursor.skipBlanks cursor.followed.skipBlanks := by
  obtain ⟨left, place⟩ := cursor
  show Trails (skipBlanksFrom left place) (skipBlanksFrom (left ++ ['\r']) place)
  induction left generalizing place with
  | nil => exact .ended
  | cons first others ih =>
      simp only [List.cons_append, skipBlanksFrom]
      split_ifs
      · exact ih _
      · exact .filled

private theorem length_skipBlanks_le (cursor : Cursor) :
    cursor.skipBlanks.left.length ≤ cursor.left.length := by
  obtain ⟨left, place⟩ := cursor
  show (skipBlanksFrom left place).left.length ≤ left.length
  induction left generalizing place with
  | nil => exact Nat.le_refl _
  | cons first others ih =>
      rw [skipBlanksFrom]
      split_ifs
      · exact Nat.le_succ_of_le (ih _)
      · exact Nat.le_refl _

end Cursor

private theorem Alike.bind {α β : Type} {bound : Nat} {short long : Option α × Option Cursor}
    (alike : Alike bound short long) (next : α → Option β) :
    Alike bound (short.1.bind next, short.2) (long.1.bind next, long.2) := by
  cases alike with
  | neither first second => exact .neither (by rw [first]; rfl) (by rw [second]; rfl)
  | @both meaning after closer first second =>
      subst first second
      cases found : next meaning with
      | none => exact .neither found found
      | some result =>
          exact .both closer (congrArg (·, some after) found)
            (congrArg (·, some after.followed) found)

namespace Reader

/-- What is known of a node that was read. -/
def ofNode (read : Node × Option Cursor) : Option Value × Option Cursor :=
  (read.1.value.toOption, read.2)

/-- What is known of items that were read, the first of them at the given position. -/
def ofItems (position : Nat) (read : Items × Option Cursor) : Option (List Value) × Option Cursor :=
  ((read.1.values position).toOption, read.2)

/-- What is known of entries that were read. -/
def ofEntries (read : Entries × Option Cursor) : Option (List (String × Value)) × Option Cursor :=
  (read.1.pairs.toOption, read.2)

/-! ### Single values -/

private theorem scalar_alike {α : Type} {bound : Nat} {make : α → Option Position → Node}
    {value : α → Value} (meaning : ∀ found place, (make found place).value = .ok (value found))
    {short long : Scanned α} (alike : Alike bound short.outcome long.outcome) :
    Alike bound (ofNode (scalar make short)) (ofNode (scalar make long)) := by
  have unread : ∀ scanned : Scanned α, scanned.outcome.1 = none →
      (ofNode (scalar make scanned)).1 = none := by
    intro scanned none
    obtain ⟨read, skip⟩ := scanned
    cases read with
    | ok found => cases none
    | error fault => cases skip <;> rfl
  have readsAs : ∀ (scanned : Scanned α) (found : α) (after : Cursor),
      scanned.outcome = (some found, some after) →
      ofNode (scalar make scanned) = (some (value found), some after) := by
    intro scanned found after known
    obtain ⟨first, second⟩ := Prod.mk.inj known
    rw [toOption_eq_some_iff] at first second
    simp only [ofNode, scalar, first, second, meaning]
    rfl
  cases alike with
  | both closer first second =>
      exact .both closer (readsAs _ _ _ first) (readsAs _ _ _ second)
  | neither first second => exact .neither (unread _ first) (unread _ second)

private theorem word_alike {node : Option Position → Node} {value : Value}
    (meaning : ∀ place, (node place).value = .ok value) {letters : List Char}
    (plain : '\r' ∉ letters) (cursor : Cursor) :
    Alike (cursor.left.length + 1) (ofNode (word node letters cursor))
      (ofNode (word node letters cursor.followed)) := by
  unfold word
  rcases cursor.word_followed plain with ⟨after, closer, short, long⟩ | ⟨_, _, short, long⟩
  · simp only [short, long, ofNode, meaning]
    exact .both (Nat.lt_succ_of_le closer) rfl rfl
  · simp only [short, long]
    exact .neither rfl rfl

/-- What stands in brackets is a value if the brackets do not stand too deep. -/
private theorem limited_alike {α : Type} {bound depth : Nat} {make : α → Value} {node other : Node}
    {short long : Option α × Option Cursor} (alike : Alike bound short long)
    (shortIs : node.value.toOption = short.1.map make)
    (longIs : other.value.toOption = long.1.map make) (before behind : Cursor) :
    Alike bound (ofNode (limited depth before node, short.2))
      (ofNode (limited depth behind other, long.2)) := by
  have limits : ∀ (cursor : Cursor) (node : Node), (limited depth cursor node).value.toOption =
      if depth < depthLimit then node.value.toOption else none := by
    intro cursor node
    unfold limited
    split_ifs <;> rfl
  have filled := alike.bind fun found => if depth < depthLimit then some (make found) else none
  simp only [ofNode, limits, shortIs, longIs]
  split_ifs at filled ⊢ with room
  · rw [Option.map_eq_bind, Option.map_eq_bind]
    exact filled
  · exact .neither rfl rfl

private theorem array_toOption (start : Option Position) (items : Items) :
    (Node.array start items).value.toOption = (items.values 0).toOption.map .array := by
  rw [Node.value, toOption_map]

private theorem object_toOption (start : Option Position) (entries : Entries) :
    (Node.object start entries).value.toOption = entries.pairs.toOption.map .object := by
  rw [Node.value, toOption_map]

private theorem nodeAt_cons (fuel depth : Nat) (first : Char) (others : List Char)
    (place : Position) :
    nodeAt (fuel + 1) depth ⟨first :: others, place⟩ =
      let next : Cursor := ⟨others, place.after first⟩
      if first = 'n' then word .null ['u', 'l', 'l'] next
      else if first = 't' then word (.bool true) ['r', 'u', 'e'] next
      else if first = 'f' then word (.bool false) ['a', 'l', 's', 'e'] next
      else if first = '"' then scalar .string (StringLiteral.scan next)
      else if first = '[' then
        let items := firstItem fuel (depth + 1) next.skipBlanks
        (limited depth ⟨first :: others, place⟩ (.array (some place) items.1), items.2)
      else if first = '\x7b' then
        let entries := firstEntry fuel (depth + 1) next.skipBlanks
        (limited depth ⟨first :: others, place⟩ (.object (some place) entries.1), entries.2)
      else if startsNumber first then scalar .number (NumberLiteral.scan ⟨first :: others, place⟩)
      else stopped (Cursor.faultAhead ⟨first :: others, place⟩ .expectedValue) := by
  rw [nodeAt]
  split_ifs with null isTrue isFalse string array object number
  · subst null
    rfl
  · subst isTrue
    rfl
  · subst isFalse
    rfl
  · subst string
    rfl
  · subst array
    rfl
  · subst object
    rfl
  · simp [number]
  · simp [number]

/-! ### Lists of items -/

private theorem ofItems_firstItem (fuel depth position : Nat) (cursor : Cursor) :
    ofItems position (firstItem (fuel + 1) depth cursor) =
      if cursor.left.head? = none then (none, none)
      else if cursor.left.head? = some ']' then (some [], some cursor.next)
      else ofItems position (itemAt fuel depth cursor) := by
  obtain ⟨left, place⟩ := cursor
  rw [firstItem]
  cases left with
  | nil => rfl
  | cons first others =>
      by_cases closed : first = ']'
      · subst closed
        rfl
      · simp [closed]

private theorem ofItems_itemAt {fuel depth : Nat} {cursor after : Cursor} {value : Value}
    (read : ofNode (nodeAt fuel depth cursor) = (some value, some after)) (position : Nat) :
    ofItems position (itemAt (fuel + 1) depth cursor) =
      let later := ofItems (position + 1) (laterItems fuel depth after.skipBlanks)
      (later.1.bind fun others => some (value :: others), later.2) := by
  cases opened : nodeAt fuel depth cursor with
  | mk node behind =>
      rw [opened] at read
      obtain ⟨own, rfl⟩ := Prod.mk.inj read
      simp only at own
      simp only [ofItems, itemAt, opened, values_item_toOption, own, Option.bind_some,
        Option.map_eq_bind]
      rfl

private theorem itemAt_unread {fuel depth : Nat} {cursor : Cursor}
    (unread : (ofNode (nodeAt fuel depth cursor)).1 = none) (position : Nat) :
    (ofItems position (itemAt (fuel + 1) depth cursor)).1 = none := by
  cases opened : nodeAt fuel depth cursor with
  | mk node behind =>
      have own : node.value.toOption = none := by rwa [opened] at unread
      cases behind <;>
        simp only [ofItems, itemAt, opened, values_item_toOption, own, Option.bind_none]

private theorem ofItems_laterItems (fuel depth position : Nat) (cursor : Cursor) :
    ofItems position (laterItems (fuel + 1) depth cursor) =
      if cursor.left.head? = some ']' then (some [], some cursor.next)
      else if cursor.left.head? = some ',' then
        let following := cursor.next.skipBlanks
        if following.left.head? = none ∨ following.left.head? = some ']' then (none, none)
        else ofItems position (itemAt fuel depth following)
      else (none, none) := by
  obtain ⟨left, place⟩ := cursor
  rw [laterItems]
  cases left with
  | nil => rfl
  | cons first others =>
      by_cases closed : first = ']'
      · subst closed
        rfl
      · by_cases comma : first = ','
        · subst comma
          generalize Cursor.skipBlanks (Cursor.next ⟨',' :: others, place⟩) = following
          obtain ⟨left, place⟩ := following
          cases left with
          | nil => rfl
          | cons first others =>
              by_cases closed : first = ']'
              · subst closed
                rfl
              · simp [closed]
        · simp [closed, comma, ofItems, Items.values, Except.toOption]

/-! ### Lists of entries -/

private theorem ofEntries_firstEntry (fuel depth : Nat) (cursor : Cursor) :
    ofEntries (firstEntry (fuel + 1) depth cursor) =
      if cursor.left.head? = some '\x7d' then (some [], some cursor.next)
      else if cursor.left.head? = some '"' then
        ofEntries (entryAt fuel depth (some cursor.place) cursor)
      else (none, none) := by
  obtain ⟨left, place⟩ := cursor
  rw [firstEntry]
  cases left with
  | nil => rfl
  | cons first others =>
      by_cases closed : first = '\x7d'
      · subst closed
        rfl
      · by_cases quote : first = '"'
        · subst quote
          rfl
        · simp [closed, quote, ofEntries, Entries.pairs, Except.toOption]

private theorem ofEntries_laterEntries (fuel depth : Nat) (cursor : Cursor) :
    ofEntries (laterEntries (fuel + 1) depth cursor) =
      if cursor.left.head? = some '\x7d' then (some [], some cursor.next)
      else if cursor.left.head? = some ',' then
        let following := cursor.next.skipBlanks
        if following.left.head? = some '"' then
          ofEntries (entryAt fuel depth (some cursor.place) following)
        else (none, none)
      else (none, none) := by
  obtain ⟨left, place⟩ := cursor
  rw [laterEntries]
  cases left with
  | nil => rfl
  | cons first others =>
      by_cases closed : first = '\x7d'
      · subst closed
        rfl
      · by_cases comma : first = ','
        · subst comma
          generalize Cursor.skipBlanks (Cursor.next ⟨',' :: others, place⟩) = following
          obtain ⟨left, behind⟩ := following
          cases left with
          | nil => rfl
          | cons first others =>
              by_cases quote : first = '"'
              · subst quote
                rfl
              · by_cases closed : first = '\x7d'
                · subst closed
                  rfl
                · simp [closed, quote, ofEntries, Entries.pairs, Except.toOption]
        · simp [closed, comma, ofEntries, Entries.pairs, Except.toOption]

private theorem ofEntries_entryAt {fuel depth : Nat} {cursor after behind : Cursor} {key : String}
    {value : Value} (scanned : (StringLiteral.scan cursor.next).outcome = (some key, some after))
    (colon : after.skipBlanks.left.head? = some ':')
    (read : ofNode (nodeAt fuel depth after.skipBlanks.next.skipBlanks) =
      (some value, some behind)) (mark : Option Position) :
    ofEntries (entryAt (fuel + 1) depth mark cursor) =
      let later := ofEntries (laterEntries fuel depth behind.skipBlanks)
      (later.1.bind fun others => some ((key, value) :: others), later.2) := by
  obtain ⟨named, skipped⟩ := Prod.mk.inj scanned
  rw [toOption_eq_some_iff] at named skipped
  obtain ⟨others, left⟩ := List.head?_eq_some_iff.mp colon
  cases opened : nodeAt fuel depth after.skipBlanks.next.skipBlanks with
  | mk node ending =>
      rw [opened] at read
      obtain ⟨own, rfl⟩ := Prod.mk.inj read
      simp only at own
      simp only [ofEntries, entryAt, skipped, left, opened, named, pairs_entry_toOption, own,
        Option.bind_some, Option.map_eq_bind]
      rfl

private theorem entryAt_unnamed {fuel depth : Nat} {cursor : Cursor}
    (unnamed : (StringLiteral.scan cursor.next).outcome.1 = none) (mark : Option Position) :
    (ofEntries (entryAt (fuel + 1) depth mark cursor)).1 = none := by
  unfold ofEntries
  rw [entryAt]
  cases scanned : StringLiteral.scan cursor.next with
  | mk read skip =>
      rw [scanned] at unnamed
      cases read with
      | ok key => cases unnamed
      | error fault =>
          cases skip with
          | error skip => rfl
          | ok after =>
              simp only
              split
              · split <;> rfl
              · rfl
              · rfl
              · rfl

private theorem entryAt_uncoloned {fuel depth : Nat} {cursor after : Cursor} {key : String}
    (scanned : (StringLiteral.scan cursor.next).outcome = (some key, some after))
    (uncoloned : after.skipBlanks.left.head? ≠ some ':') (mark : Option Position) :
    (ofEntries (entryAt (fuel + 1) depth mark cursor)).1 = none := by
  obtain ⟨named, skipped⟩ := Prod.mk.inj scanned
  rw [toOption_eq_some_iff] at named skipped
  unfold ofEntries
  rw [entryAt]
  simp only [skipped, named]
  split
  · next colon => exact absurd (List.head?_eq_some_iff.mpr ⟨_, colon⟩) uncoloned
  · rfl
  · rfl
  · rfl

private theorem entryAt_unread {fuel depth : Nat} {cursor after : Cursor} {key : String}
    (scanned : (StringLiteral.scan cursor.next).outcome = (some key, some after))
    (unread : (ofNode (nodeAt fuel depth after.skipBlanks.next.skipBlanks)).1 = none)
    (mark : Option Position) : (ofEntries (entryAt (fuel + 1) depth mark cursor)).1 = none := by
  by_cases colon : after.skipBlanks.left.head? = some ':'
  · obtain ⟨named, skipped⟩ := Prod.mk.inj scanned
    rw [toOption_eq_some_iff] at named skipped
    obtain ⟨others, left⟩ := List.head?_eq_some_iff.mp colon
    cases opened : nodeAt fuel depth after.skipBlanks.next.skipBlanks with
    | mk node ending =>
        have own : node.value.toOption = none := by rwa [opened] at unread
        cases ending <;>
          simp only [ofEntries, entryAt, skipped, left, opened, named, pairs_entry_toOption, own,
            Option.bind_none]
  · exact entryAt_uncoloned scanned colon mark

/-! ### Both readings -/

private theorem key_alike {short long : Cursor} (trails : Trails short long) :
    Alike short.left.length (StringLiteral.scan short.next).outcome
      (StringLiteral.scan long.next).outcome := by
  cases trails with
  | ended => exact .neither rfl rfl
  | @filled first others place => exact StringLiteral.scan_alike ⟨others, place.after first⟩

mutual

-- The induction is on the fuel of the shorter text. At each character up to three calls follow one
-- another, so what starts further out needs more fuel for the same rest of the text.
private theorem nodeAt_alike : ∀ (fuel more depth : Nat) (short long : Cursor), Trails short long →
    3 * short.left.length + 1 ≤ fuel → 3 * short.left.length + 1 ≤ more →
    Alike short.left.length (ofNode (nodeAt fuel depth short)) (ofNode (nodeAt more depth long))
  | 0, _, _, _, _, _, enough, _ => absurd enough (Nat.not_succ_le_zero _)
  | _ + 1, 0, _, _, _, _, _, plenty => absurd plenty (Nat.not_succ_le_zero _)
  | fuel + 1, more + 1, depth, _, _, trails, enough, plenty => by
      cases trails with
      | ended =>
          rw [nodeAt, nodeAt]
          exact .neither rfl rfl
      | @filled first others place =>
          have inside := Cursor.trails_skipBlanks ⟨others, place.after first⟩
          have shorter := Cursor.length_skipBlanks_le ⟨others, place.after first⟩
          simp only [List.length_cons] at enough plenty shorter
          rw [Cursor.followed, List.cons_append, nodeAt_cons, nodeAt_cons]
          split_ifs with null isTrue isFalse quote bracket brace number
          · exact word_alike (fun _ => rfl) (by decide) ⟨others, place.after first⟩
          · exact word_alike (fun _ => rfl) (by decide) ⟨others, place.after first⟩
          · exact word_alike (fun _ => rfl) (by decide) ⟨others, place.after first⟩
          · exact scalar_alike (fun _ _ => rfl)
              (StringLiteral.scan_alike ⟨others, place.after first⟩)
          · have items := firstItem_alike fuel more (depth + 1) 0 _ _ inside (by omega) (by omega)
            exact limited_alike (items.mono (by simp only [List.length_cons]; omega))
              (array_toOption _ _) (array_toOption _ _) _ _
          · have entries := firstEntry_alike fuel more (depth + 1) _ _ inside (by omega) (by omega)
            exact limited_alike (entries.mono (by simp only [List.length_cons]; omega))
              (object_toOption _ _) (object_toOption _ _) _ _
          · exact scalar_alike (fun _ _ => rfl) (NumberLiteral.scan_alike ⟨first :: others, place⟩)
          · exact .neither rfl rfl

private theorem firstItem_alike : ∀ (fuel more depth position : Nat) (short long : Cursor),
    Trails short long → 3 * short.left.length + 3 ≤ fuel → 3 * short.left.length + 3 ≤ more →
    Alike short.left.length (ofItems position (firstItem fuel depth short))
      (ofItems position (firstItem more depth long))
  | 0, _, _, _, _, _, _, enough, _ => absurd enough (Nat.not_succ_le_zero _)
  | _ + 1, 0, _, _, _, _, _, _, plenty => absurd plenty (Nat.not_succ_le_zero _)
  | fuel + 1, more + 1, depth, position, short, long, trails, enough, plenty => by
      rw [ofItems_firstItem, ofItems_firstItem, trails.head?]
      split_ifs with ended closed
      · exact .neither rfl rfl
      · rw [trails.next closed]
        exact .both (Cursor.length_next_lt closed) rfl rfl
      · exact itemAt_alike fuel more depth position short long trails (by omega) (by omega)

private theorem itemAt_alike : ∀ (fuel more depth position : Nat) (short long : Cursor),
    Trails short long → 3 * short.left.length + 2 ≤ fuel → 3 * short.left.length + 2 ≤ more →
    Alike short.left.length (ofItems position (itemAt fuel depth short))
      (ofItems position (itemAt more depth long))
  | 0, _, _, _, _, _, _, enough, _ => absurd enough (Nat.not_succ_le_zero _)
  | _ + 1, 0, _, _, _, _, _, _, plenty => absurd plenty (Nat.not_succ_le_zero _)
  | fuel + 1, more + 1, depth, position, short, long, trails, enough, plenty => by
      cases nodeAt_alike fuel more depth short long trails (by omega) (by omega) with
      | neither first second =>
          exact .neither (itemAt_unread first position) (itemAt_unread second position)
      | @both value after closer first second =>
          rw [ofItems_itemAt first, ofItems_itemAt second]
          have shorter := after.length_skipBlanks_le
          have later := laterItems_alike fuel more depth (position + 1) _ _
            after.trails_skipBlanks (by omega) (by omega)
          exact (later.bind _).mono (by omega)

private theorem laterItems_alike : ∀ (fuel more depth position : Nat) (short long : Cursor),
    Trails short long → 3 * short.left.length + 1 ≤ fuel → 3 * short.left.length + 1 ≤ more →
    Alike short.left.length (ofItems position (laterItems fuel depth short))
      (ofItems position (laterItems more depth long))
  | 0, _, _, _, _, _, _, enough, _ => absurd enough (Nat.not_succ_le_zero _)
  | _ + 1, 0, _, _, _, _, _, _, plenty => absurd plenty (Nat.not_succ_le_zero _)
  | fuel + 1, more + 1, depth, position, short, long, trails, enough, plenty => by
      rw [ofItems_laterItems, ofItems_laterItems, trails.head?]
      by_cases closed : short.left.head? = some ']'
      · rw [if_pos closed, if_pos closed, trails.next closed]
        exact .both (Cursor.length_next_lt closed) rfl rfl
      · rw [if_neg closed, if_neg closed]
        by_cases comma : short.left.head? = some ','
        · have behind := short.next.trails_skipBlanks
          have shorter := Cursor.length_next_lt comma
          have less := short.next.length_skipBlanks_le
          rw [if_pos comma, if_pos comma, trails.next comma]
          simp only [behind.head?]
          split_ifs
          · exact .neither rfl rfl
          · have item := itemAt_alike fuel more depth position _ _ behind (by omega) (by omega)
            exact item.mono (by omega)
        · rw [if_neg comma, if_neg comma]
          exact .neither rfl rfl

private theorem firstEntry_alike : ∀ (fuel more depth : Nat) (short long : Cursor),
    Trails short long → 3 * short.left.length + 3 ≤ fuel → 3 * short.left.length + 3 ≤ more →
    Alike short.left.length (ofEntries (firstEntry fuel depth short))
      (ofEntries (firstEntry more depth long))
  | 0, _, _, _, _, _, enough, _ => absurd enough (Nat.not_succ_le_zero _)
  | _ + 1, 0, _, _, _, _, _, plenty => absurd plenty (Nat.not_succ_le_zero _)
  | fuel + 1, more + 1, depth, short, long, trails, enough, plenty => by
      rw [ofEntries_firstEntry, ofEntries_firstEntry, trails.head?]
      split_ifs with closed quote
      · rw [trails.next closed]
        exact .both (Cursor.length_next_lt closed) rfl rfl
      · exact entryAt_alike fuel more depth _ _ short long trails (by omega) (by omega)
      · exact .neither rfl rfl

private theorem entryAt_alike : ∀ (fuel more depth : Nat) (mark other : Option Position)
    (short long : Cursor), Trails short long →
    3 * short.left.length + 2 ≤ fuel → 3 * short.left.length + 2 ≤ more →
    Alike short.left.length (ofEntries (entryAt fuel depth mark short))
      (ofEntries (entryAt more depth other long))
  | 0, _, _, _, _, _, _, _, enough, _ => absurd enough (Nat.not_succ_le_zero _)
  | _ + 1, 0, _, _, _, _, _, _, _, plenty => absurd plenty (Nat.not_succ_le_zero _)
  | fuel + 1, more + 1, depth, mark, other, short, long, trails, enough, plenty => by
      cases key_alike trails with
      | neither first second =>
          exact .neither (entryAt_unnamed first mark) (entryAt_unnamed second other)
      | @both key after closer first second =>
          have trails := after.trails_skipBlanks
          have shorter := after.length_skipBlanks_le
          by_cases colon : after.skipBlanks.left.head? = some ':'
          · have behind := after.skipBlanks.next.trails_skipBlanks
            have less := Cursor.length_next_lt colon
            have lesser := after.skipBlanks.next.length_skipBlanks_le
            rw [← trails.next colon] at behind
            have colonLong := trails.head?.trans colon
            cases nodeAt_alike fuel more depth _ _ behind (by omega) (by omega) with
            | neither unread unreadLong =>
                exact .neither (entryAt_unread first unread mark)
                  (entryAt_unread second unreadLong other)
            | @both value ending nearer own ownLong =>
                rw [ofEntries_entryAt first colon own, ofEntries_entryAt second colonLong ownLong]
                have least := ending.length_skipBlanks_le
                have later := laterEntries_alike fuel more depth _ _ ending.trails_skipBlanks
                  (by omega) (by omega)
                exact (later.bind _).mono (by omega)
          · have colonless : after.followed.skipBlanks.left.head? ≠ some ':' := by
              rwa [trails.head?]
            exact .neither (entryAt_uncoloned first colon mark)
              (entryAt_uncoloned second colonless other)

private theorem laterEntries_alike : ∀ (fuel more depth : Nat) (short long : Cursor),
    Trails short long → 3 * short.left.length + 1 ≤ fuel → 3 * short.left.length + 1 ≤ more →
    Alike short.left.length (ofEntries (laterEntries fuel depth short))
      (ofEntries (laterEntries more depth long))
  | 0, _, _, _, _, _, enough, _ => absurd enough (Nat.not_succ_le_zero _)
  | _ + 1, 0, _, _, _, _, _, plenty => absurd plenty (Nat.not_succ_le_zero _)
  | fuel + 1, more + 1, depth, short, long, trails, enough, plenty => by
      rw [ofEntries_laterEntries, ofEntries_laterEntries, trails.head?]
      by_cases closed : short.left.head? = some '\x7d'
      · rw [if_pos closed, if_pos closed, trails.next closed]
        exact .both (Cursor.length_next_lt closed) rfl rfl
      · rw [if_neg closed, if_neg closed]
        by_cases comma : short.left.head? = some ','
        · have behind := short.next.trails_skipBlanks
          have shorter := Cursor.length_next_lt comma
          have less := short.next.length_skipBlanks_le
          rw [if_pos comma, if_pos comma, trails.next comma]
          simp only [behind.head?]
          split_ifs
          · have entry := entryAt_alike fuel more depth (some short.place) (some long.place) _ _
              behind (by omega) (by omega)
            exact entry.mono (by omega)
          · exact .neither rfl rfl
        · rw [if_neg comma, if_neg comma]
          exact .neither rfl rfl

end

end Reader

private theorem readDocument_alike (line : List Char) :
    ∃ bound, Alike bound (Reader.ofNode (readDocument (String.ofList line)))
      (Reader.ofNode (readDocument (String.ofList (line ++ ['\r'])))) := by
  have start : ∀ text : String, readDocument text =
      Reader.nodeAt (3 * (Cursor.ofText text).skipBlanks.left.length + 3) 0
        (Cursor.ofText text).skipBlanks := fun _ => rfl
  have followed : Cursor.ofText (String.ofList (line ++ ['\r'])) =
      (Cursor.ofText (String.ofList line)).followed := by
    simp only [Cursor.ofText, Cursor.followed, String.toList_ofList]
  have trails := (Cursor.ofText (String.ofList line)).trails_skipBlanks
  have longer := trails.length_le
  rw [start, start, followed]
  exact ⟨_, Reader.nodeAt_alike _ _ 0 _ _ trails (by omega) (by omega)⟩

/-- A carriage return at the end of a text makes no difference to the value of the text. -/
theorem Value.parse_append_return (line : List Char) :
    (parse (String.ofList (line ++ ['\r']))).toOption = (parse (String.ofList line)).toOption := by
  have meaning : ∀ text : String, (parse text).toOption =
      (Reader.ofNode (readDocument text)).1.bind fun value =>
        if ((Reader.ofNode (readDocument text)).2.map Cursor.skipBlanks).all (·.left.isEmpty) then
          some value.collapse
        else none := by
    intro text
    cases read : readDocument text with
    | mk node after =>
        simp only [parse, read, Reader.ofNode]
        cases node.value with
        | error unreadable => rfl
        | ok value =>
            cases after with
            | none => rfl
            | some cursor =>
                simp only [Option.map_some, Option.all_some]
                show _ = if cursor.skipBlanks.left.isEmpty then some value.collapse else none
                split_ifs <;> rfl
  obtain ⟨bound, alike⟩ := readDocument_alike line
  rw [meaning, meaning]
  cases alike with
  | neither first second =>
      rw [first, second]
      rfl
  | @both value after closer first second =>
      have same := after.trails_skipBlanks.isEmpty
      simp only [first, second, Option.map_some, Option.all_some, same]

end SdkClients.Json
