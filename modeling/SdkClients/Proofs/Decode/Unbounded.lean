import SdkClients.Decode
import SdkClients.Proofs.Pointwise

set_option autoImplicit false

/-!
Reading declarations without counting levels.

A reader of lists or records uses its inner readers on lower nodes only, so it is enough that these
agree there. It follows by induction on the height that more levels than a node has make no
difference, and that a declaration is read as a record whose lists hold declarations that are read in
the same way.
-/

namespace SdkClients.Decode

open Json (Node Items Entries)

variable {α δ : Type}

/-- Two readers that give the same answer on every node below a height. -/
def AgreeBelow (height : Nat) (read other : Reader α) : Prop :=
  ∀ node : Node, node.height < height → read node = other node

private theorem AgreeBelow.mono {height lower : Nat} {read other : Reader α}
    (agree : AgreeBelow height read other) (less : lower ≤ height) : AgreeBelow lower read other :=
  fun node below => agree node (Nat.lt_of_lt_of_le below less)

private theorem AgreeBelow.map {β : Type} {height : Nat} {read other : Reader α}
    (agree : AgreeBelow height read other) (f : α → β) :
    AgreeBelow height (fun node => (read node).map f) (fun node => (other node).map f) :=
  fun node below => congrArg (Except.map f) (agree node below)

/-! ### Lists -/

private theorem AgreeBelow.readItems {read other : Reader α} : ∀ {items : Items} (position : Nat),
    AgreeBelow (items.height + 1) read other →
      readItems read position items = readItems other position items
  | .done _, _, _ => rfl
  | .broken _ _ _ _, _, _ => rfl
  | .item _ _ node rest, position, agree => by
      rw [Items.height] at agree
      have here : read node = other node := agree node (Nat.lt_succ_of_le (Nat.le_max_left _ _))
      have later := (agree.mono (Nat.succ_le_succ (Nat.le_max_right _ _))).readItems (position + 1)
      rw [Decode.readItems, Decode.readItems, here, later]

/-- A list is read from nodes that are lower than its own. -/
private theorem AgreeBelow.readList {height : Nat} {read other : Reader α}
    (agree : AgreeBelow height read other) :
    AgreeBelow (height + 1) (readList read) (readList other) := by
  intro node below
  cases node with
  | array start items =>
      exact (agree.mono (Nat.le_of_lt_succ below)).readItems 0
  | tooDeep limit inner => cases inner <;> rfl
  | null | bool | number | string | object | unreadable => rfl

/-! ### Records -/

/-- Two fields that differ only in how higher nodes are read. -/
structure Field.AgreeBelow (height : Nat) (first second : Field δ) : Prop where
  name : first.name = second.name
  required : first.required = second.required
  isSet : first.isSet = second.isSet
  read : ∀ draft, Decode.AgreeBelow height (first.read draft) (second.read draft)

/-- Two records that differ only in how their fields read higher nodes. -/
structure Record.AgreeBelow (height : Nat) (first second : Record δ α) : Prop where
  title : first.title = second.title
  empty : first.empty = second.empty
  complete : first.complete = second.complete
  fields : List.Forall₂ (Field.AgreeBelow height) first.fields second.fields

namespace Record.AgreeBelow

variable {height : Nat} {first second : Record δ α}

private theorem find?_field (agree : Record.AgreeBelow height first second) (name : String) :
    Option.Rel (Field.AgreeBelow height) (first.fields.find? fun field => field.name == name)
      (second.fields.find? fun field => field.name == name) :=
  find?_forall₂ (fun _ _ alike => by rw [alike.name]) agree.fields

private theorem readEntries (agree : Record.AgreeBelow height first second) :
    ∀ (entries : Entries) (draft : δ), entries.height < height →
      first.readEntries draft entries = second.readEntries draft entries
  | .done _, draft, _ => by rw [Record.readEntries, Record.readEntries, agree.complete]
  | .broken _ _ _, _, _ => rfl
  | .noColon _ key _ _, draft, _ => by
      rw [Record.readEntries, Record.readEntries]
      refine congrArg _ (funext fun name => ?_)
      have declared := agree.find?_field name
      generalize first.fields.find? _ = left at declared ⊢
      generalize second.fields.find? _ = right at declared ⊢
      cases declared with
      | none => rfl
      | some alike => simp only [alike.isSet]
  | .entry _ key _ node rest, draft, below => by
      have here : node.height < height := Nat.lt_of_le_of_lt (Nat.le_max_left _ _) below
      have later := fun next => agree.readEntries rest next
        (Nat.lt_of_le_of_lt (Nat.le_max_right _ _) below)
      rw [Record.readEntries, Record.readEntries]
      refine congrArg _ (funext fun name => ?_)
      have declared := agree.find?_field name
      generalize first.fields.find? _ = left at declared ⊢
      generalize second.fields.find? _ = right at declared ⊢
      cases declared with
      | none => simp only [later]
      | some alike => simp only [alike.isSet, alike.read draft node here, later]

private theorem readFields (agree : Record.AgreeBelow height first second)
    {fields others : List (Field δ)}
    (alike : List.Forall₂ (Field.AgreeBelow height) fields others) (position : Nat) (draft : δ)
    (items : Items) (below : items.height < height) :
    first.readFields position fields draft items =
      second.readFields position others draft items := by
  -- on the fields, which may outlast the items
  induction alike generalizing position draft items with
  | nil =>
      cases items with
      | done mark => rw [Record.readFields, Record.readFields, agree.complete]
      | item | broken => rfl
  | @cons left right fields others head tail ih =>
      cases items with
      | done mark =>
          rw [Record.readFields, Record.readFields, head.required, agree.title,
            agree.fields.length_eq, ih (position + 1) draft (.done mark) below]
      | item mark surplus node rest =>
          have here : node.height < height := Nat.lt_of_le_of_lt (Nat.le_max_left _ _) below
          have later := fun next => ih (position + 1) next rest
            (Nat.lt_of_le_of_lt (Nat.le_max_right _ _) below)
          simp only [Record.readFields, head.read draft node here, later]
      | broken => rfl

private theorem read (agree : Record.AgreeBelow height first second) :
    Decode.AgreeBelow (height + 1) first.read second.read := by
  intro node below
  cases node with
  | object start entries =>
      rw [Record.read, Record.read, agree.empty]
      exact agree.readEntries entries _ (Nat.lt_of_succ_lt_succ below)
  | array start items =>
      rw [Record.read, Record.read, agree.empty]
      exact agree.readFields agree.fields 0 _ items (Nat.lt_of_succ_lt_succ below)
  | tooDeep => rfl
  | null | bool | number | string | unreadable =>
      rw [Record.read, Record.read, agree.title] <;> nofun

end Record.AgreeBelow

/-! ### Declarations -/

private theorem AgreeBelow.containerRecord {height : Nat} {inner other : Reader ContainerDecl}
    (agree : AgreeBelow height inner other) :
    Record.AgreeBelow height (containerRecord inner) (containerRecord other) where
  title := rfl
  empty := rfl
  complete := rfl
  fields := by
    -- only the last two fields read declarations
    have nested : AgreeBelow height (Decode.readList inner) (Decode.readList other) :=
      agree.readList.mono (Nat.le_succ height)
    refine .cons ?name (.cons ?service (.cons ?client (.cons ?operations
      (.cons ?namespaces (.cons ?interfaces .nil)))))
    case name | service | client | operations => exact ⟨rfl, rfl, rfl, fun _ _ _ => rfl⟩
    case namespaces | interfaces => exact ⟨rfl, rfl, rfl, fun _ => nested.map _⟩

private theorem readContainerWithin_agree {levels more : Nat} (less : levels ≤ more) :
    AgreeBelow levels (readContainerWithin more) (readContainerWithin levels) := by
  induction levels generalizing more with
  | zero => exact fun node below => absurd below (Nat.not_lt_zero _)
  | succ levels ih =>
      obtain ⟨more, rfl⟩ := Nat.exists_eq_add_of_le' less
      exact (ih (Nat.le_add_left levels more)).containerRecord.read

/-- More levels than a node has make no difference. -/
private theorem readContainerWithin_eq {levels : Nat} {node : Node}
    (enough : node.height < levels) :
    readContainerWithin levels node = readContainer node :=
  readContainerWithin_agree enough node (Nat.lt_succ_self _)

/-- A declaration is read as a record of declarations. -/
theorem readContainer_eq (node : Node) :
    readContainer node = (containerRecord readContainer).read node := by
  have agree : AgreeBelow node.height (readContainerWithin node.height) readContainer :=
    fun inner below => readContainerWithin_eq below
  exact agree.containerRecord.read node (Nat.lt_succ_self _)

end SdkClients.Decode
