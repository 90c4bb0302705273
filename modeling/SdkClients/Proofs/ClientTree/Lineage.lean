import SdkClients.Proofs.ClientTree.Agreement
import SdkClients.Proofs.ClientTree.Naming
import SdkClients.Proofs.ClientTree.Traversal

set_option autoImplicit false

/-!
Qualified names and the parent links behind them.

The line of a client leads from a root down to it, from each client to one whose parent it is. There
is one line at most, and nobody stands in it twice, so it has no more clients than the tree: the loop
that collects the names upward may give up beyond that length and gives up on circles only. Whoever
has a line is named by it. An id outside the tree is not told from the end of a line, and gets the
name of an empty one.
-/

namespace SdkClients.ClientTree

open Relation (ReflTransGen)

variable {tree : ClientTree}

/-- The clients from a root down to a client, each the parent of the next one. -/
inductive Line (tree : ClientTree) : Client → List Client → Prop
  | root {client : Client} : client ∈ tree.clients → client.parent = none →
      Line tree client [client]
  | child {client parent : Client} {line : List Client} : client ∈ tree.clients →
      tree.LinksTo client parent → Line tree parent line → Line tree client (line ++ [client])

namespace Line

variable {client : Client} {line : List Client}

theorem mem_clients (own : tree.Line client line) : ∀ member ∈ line, member ∈ tree.clients := by
  induction own with
  | root listed _ => exact List.forall_mem_singleton.mpr listed
  | child listed _ _ ih =>
      exact List.forall_mem_append.mpr ⟨ih, List.forall_mem_singleton.mpr listed⟩

private theorem unique (indexed : tree.Indexed) {other : List Client} (own : tree.Line client line)
    (again : tree.Line client other) : line = other := by
  induction own generalizing other with
  | root listed top =>
      cases again with
      | root => rfl
      | child _ link _ =>
          have linked := ((indexed.linksTo_iff listed).mp link).2
          rw [top] at linked
          cases linked
  | @child client parent upper listed link _ ih =>
      cases again with
      | root _ top =>
          have linked := ((indexed.linksTo_iff listed).mp link).2
          rw [top] at linked
          cases linked
      | @child _ second _ _ linkAgain upperAgain =>
          obtain rfl : parent = second := Option.some.inj (link.symm.trans linkAgain)
          rw [ih upperAgain]

/-- Whoever stands in a line has the part down to him for his own. -/
private theorem exists_shorter (own : tree.Line client line) {member : Client}
    (inside : member ∈ line) :
    ∃ upper, tree.Line member upper ∧ upper.length ≤ line.length := by
  induction own with
  | root listed top =>
      obtain rfl := List.mem_singleton.mp inside
      exact ⟨_, .root listed top, Nat.le_refl _⟩
  | @child client parent upper listed link above ih =>
      rcases List.mem_append.mp inside with higher | here
      · obtain ⟨part, partLine, shorter⟩ := ih higher
        refine ⟨part, partLine, Nat.le_trans shorter ?_⟩
        rw [List.length_append]
        exact Nat.le_add_right _ _
      · obtain rfl := List.mem_singleton.mp here
        exact ⟨_, .child listed link above, Nat.le_refl _⟩

private theorem nodup (indexed : tree.Indexed) (own : tree.Line client line) : line.Nodup := by
  induction own with
  | root => exact List.nodup_singleton _
  | @child client parent upper listed link above ih =>
      have apart : client ∉ upper := by
        intro repeated
        obtain ⟨part, partLine, shorter⟩ := above.exists_shorter repeated
        have same := partLine.unique indexed (.child listed link above)
        rw [same, List.length_append, List.length_singleton] at shorter
        omega
      exact List.nodup_append.mpr ⟨ih, List.nodup_singleton _, fun first inUpper second inLast same =>
        apart (List.mem_singleton.mp inLast ▸ same ▸ inUpper)⟩

private theorem length_le (indexed : tree.Indexed) (own : tree.Line client line) :
    line.length ≤ tree.size :=
  List.Nodup.length_le_of_subset (own.nodup indexed) own.mem_clients

end Line

private theorem exists_line_iff {client : Client} (indexed : tree.Indexed)
    (member : client ∈ tree.clients) :
    (∃ line, tree.Line client line) ↔
      ∃ root ∈ tree.clients, root.parent = none ∧ ReflTransGen tree.LinksTo client root := by
  constructor
  · rintro ⟨line, own⟩
    induction own with
    | @root client listed top => exact ⟨client, listed, top, .refl⟩
    | child listed link _ ih =>
        obtain ⟨parentListed, -⟩ := (indexed.linksTo_iff listed).mp link
        obtain ⟨root, rootListed, top, climbed⟩ := ih parentListed
        exact ⟨root, rootListed, top, .head link climbed⟩
  · rintro ⟨root, listed, top, climbed⟩
    induction climbed using ReflTransGen.head_induction_on with
    | refl => exact ⟨_, .root listed top⟩
    | head link _ ih =>
        obtain ⟨parentListed, -⟩ := (indexed.linksTo_iff member).mp link
        obtain ⟨line, above⟩ := ih parentListed
        exact ⟨_, .child member link above⟩

/-! ### Names along a line -/

private theorem namesUpward_of_line {client : Client} {line : List Client} (indexed : tree.Indexed)
    (own : tree.Line client line) {allowed : Nat} (enough : line.length ≤ allowed) :
    tree.namesUpward allowed (some client) = some (line.map Client.name).reverse := by
  induction own generalizing allowed with
  | root listed top =>
      obtain ⟨allowed, rfl⟩ := Nat.exists_eq_add_of_le' enough
      simp only [List.length_singleton, namesUpward, top, Option.bind_none, Option.map_some,
        List.map_singleton, List.reverse_singleton]
  | @child client parent upper listed link above ih =>
      rw [List.length_append, List.length_singleton] at enough
      obtain ⟨allowed, rfl⟩ := Nat.exists_eq_add_of_le' (Nat.le_trans (Nat.le_add_left _ _) enough)
      have step : client.parent.bind tree.client? = some parent := by
        obtain ⟨present, linked⟩ := (indexed.linksTo_iff listed).mp link
        rw [linked, Option.bind_some, indexed.client?_id present]
      simp only [namesUpward, step, ih (Nat.le_of_add_le_add_right enough), Option.map_some,
        List.map_append, List.map_singleton, List.reverse_append, List.reverse_singleton,
        List.singleton_append]

private theorem exists_line_of_namesUpward (indexed : tree.Indexed) {allowed : Nat}
    {client : Client}
    (member : client ∈ tree.clients) {names : List String}
    (found : tree.namesUpward allowed (some client) = some names) :
    ∃ line, tree.Line client line := by
  induction allowed generalizing client names with
  | zero => cases found
  | succ allowed ih =>
      rw [namesUpward] at found
      obtain ⟨upper, above, -⟩ := Option.map_eq_some_iff.mp found
      cases link : client.parent with
      | none => exact ⟨_, .root member link⟩
      | some parent =>
          obtain ⟨inRange, -⟩ := indexed.linked client member parent link
          obtain ⟨next, located⟩ : ∃ next, tree.client? parent = some next :=
            ⟨_, List.getElem?_eq_getElem inRange⟩
          obtain ⟨present, rfl⟩ := indexed.client?_iff.mp located
          rw [link, Option.bind_some, located] at above
          obtain ⟨line, own⟩ := ih present above
          exact ⟨_, .child member ((indexed.linksTo_iff member).mpr ⟨present, link⟩) own⟩

theorem qualifiedName?_of_line {client : Client} {line : List Client} (indexed : tree.Indexed)
    (own : tree.Line client line) (member : client ∈ tree.clients) :
    tree.qualifiedName? client.id = some (String.intercalate "." (line.map Client.name)) := by
  unfold qualifiedName?
  rw [indexed.client?_id member, namesUpward_of_line indexed own (own.length_le indexed),
    Option.map_some, List.reverse_reverse]

theorem exists_line_of_qualifiedName? {client : Client} (indexed : tree.Indexed)
    (member : client ∈ tree.clients) {name : String}
    (named : tree.qualifiedName? client.id = some name) : ∃ line, tree.Line client line := by
  unfold qualifiedName? at named
  rw [indexed.client?_id member] at named
  obtain ⟨names, found, -⟩ := Option.map_eq_some_iff.mp named
  exact exists_line_of_namesUpward indexed member found

private theorem qualifiedName?_of_absent {id : ClientId} (absent : tree.client? id = none) :
    tree.qualifiedName? id = some "" := by
  unfold qualifiedName?
  rw [absent]
  cases tree.size <;> rfl

/-! ### The loop that collects names -/

/-- The loop between two rounds: the names so far, nearest first, and the client at hand. -/
structure Climb where
  names : List String
  cursor : Option Client

def Climb.initial (tree : ClientTree) (id : ClientId) : Climb := ⟨[], tree.client? id⟩

/-- A round adds the name of the client at hand and goes on to its parent, as long as there are no
more names than clients. -/
inductive Ascends (tree : ClientTree) : Climb → Climb → Prop
  | parent {names : List String} {client : Client} : (names ++ [client.name]).length ≤ tree.size →
      Ascends tree ⟨names, some client⟩
        ⟨names ++ [client.name], client.parent.bind tree.client?⟩

/-- How the loop ends: nobody is left, or there are too many names. -/
inductive Arrives (tree : ClientTree) : Climb → Option String → Prop
  | top {names : List String} :
      Arrives tree ⟨names, none⟩ (some (String.intercalate "." names.reverse))
  | tooLong {names : List String} {client : Client} :
      tree.size < (names ++ [client.name]).length → Arrives tree ⟨names, some client⟩ none

private theorem Ascends.length_names {before after : Climb} (round : tree.Ascends before after) :
    after.names.length = before.names.length + 1 ∧ after.names.length ≤ tree.size := by
  cases round with
  | parent bounded => exact ⟨List.length_append, bounded⟩

/-- What the loop still has to do decides the name. -/
private theorem qualifiedName?_of_ascents {id : ClientId} {state : Climb}
    (climbed : ReflTransGen tree.Ascends (.initial tree id) state) :
    tree.qualifiedName? id =
      (tree.namesUpward (tree.size - state.names.length) state.cursor).map fun later =>
        String.intercalate "." (state.names ++ later).reverse := by
  induction climbed with
  | refl => rfl
  | tail _ round ih =>
      cases round with
      | @parent names client bounded =>
          rw [List.length_append, List.length_singleton] at bounded
          obtain ⟨left, enough⟩ := Nat.exists_eq_add_of_le bounded
          have before : tree.size - names.length = left + 1 := by omega
          have after : tree.size - (names ++ [client.name]).length = left := by
            rw [List.length_append, List.length_singleton]
            omega
          simp only [ih, before, after, namesUpward, Option.map_map]
          congr 1
          funext later
          simp

private theorem exists_arrival {id : ClientId} {state : Climb}
    (climbed : ReflTransGen tree.Ascends (.initial tree id) state) :
    ∃ last outcome, ReflTransGen tree.Ascends (.initial tree id) last ∧
      tree.Arrives last outcome := by
  obtain ⟨left, same⟩ : ∃ left, tree.size - state.names.length = left := ⟨_, rfl⟩
  induction left using Nat.strongRecOn generalizing state with
  | ind left ih =>
      obtain ⟨names, cursor⟩ := state
      cases cursor with
      | none => exact ⟨_, _, climbed, .top⟩
      | some client =>
          rcases Nat.lt_or_ge tree.size (names ++ [client.name]).length with exceeded | bounded
          · exact ⟨_, _, climbed, .tooLong exceeded⟩
          · have round : tree.Ascends ⟨names, some client⟩ _ := .parent bounded
            refine ih _ ?_ (climbed.tail round) rfl
            simp only [List.length_append, List.length_singleton] at same bounded ⊢
            omega

private theorem Arrives.outcome_eq {id : ClientId} {state : Climb}
    (climbed : ReflTransGen tree.Ascends (.initial tree id) state) {outcome : Option String}
    (arrived : tree.Arrives state outcome) : outcome = tree.qualifiedName? id := by
  rw [qualifiedName?_of_ascents climbed]
  cases arrived with
  | @top names =>
      have done : tree.namesUpward (tree.size - names.length) none = some [] := by
        cases tree.size - names.length <;> rfl
      rw [done, Option.map_some, List.append_nil]
  | @tooLong names client exceeded =>
      rw [List.length_append, List.length_singleton] at exceeded
      rw [Nat.sub_eq_zero_of_le (Nat.le_of_lt_succ exceeded)]
      rfl

private theorem length_names_of_rounds {id : ClientId} {states : Nat → Climb}
    (initial : states 0 = .initial tree id)
    (rounds : ∀ round, tree.Ascends (states round) (states (round + 1))) (round : Nat) :
    (states round).names.length = round := by
  induction round with
  | zero => rw [initial]; rfl
  | succ round ih => rw [(rounds round).length_names.1, ih]

/-! ### The names of a tree -/

/-- An id has a name exactly if it has a client whose parent links reach a root, and the name joins
the names of the line from the root down. -/
structure NamedExactly (tree : ClientTree) (id : ClientId) : Prop where
  nameless : tree.qualifiedName? id = none ↔ ∀ client, tree.client? id = some client →
    ¬ ∃ root ∈ tree.clients, root.parent = none ∧ ReflTransGen tree.LinksTo client root
  named : ∀ name, tree.qualifiedName? id = some name ↔ ∃ client line,
    tree.client? id = some client ∧ tree.Line client line ∧
      name = String.intercalate "." (line.map Client.name)

/-- What the qualified names of a tree are. -/
structure NamedByLines (tree : ClientTree) : Prop where
  /-- The loop does not go on forever. -/
  finite : ∀ id, ∀ states : Nat → Climb, states 0 = .initial tree id →
    ¬ ∀ round, tree.Ascends (states round) (states (round + 1))
  /-- It ends with the qualified name and with nothing else. -/
  answer : ∀ id outcome, (∃ state, ReflTransGen tree.Ascends (.initial tree id) state ∧
    tree.Arrives state outcome) ↔ outcome = tree.qualifiedName? id
  /-- Names are exact for the ids of the tree and for no others. -/
  exact_iff : ∀ id, tree.NamedExactly id ↔ tree.client? id ≠ none
  /-- An id outside the tree has the empty name. -/
  outside : ∀ id, tree.client? id = none → tree.qualifiedName? id = some ""

private theorem Indexed.namedExactly (indexed : tree.Indexed) {client : Client}
    (member : client ∈ tree.clients) : tree.NamedExactly client.id := by
  have located : tree.client? client.id = some client := indexed.client?_id member
  constructor
  · simp only [located, Option.some.injEq, forall_eq']
    rw [← exists_line_iff indexed member]
    constructor
    · rintro missing ⟨line, own⟩
      rw [qualifiedName?_of_line indexed own member] at missing
      cases missing
    · intro lineless
      cases found : tree.qualifiedName? client.id with
      | none => rfl
      | some name => exact absurd (exists_line_of_qualifiedName? indexed member found) lineless
  · intro name
    simp only [located, Option.some.injEq, exists_and_left, exists_eq_left']
    constructor
    · intro found
      obtain ⟨line, own⟩ := exists_line_of_qualifiedName? indexed member found
      rw [qualifiedName?_of_line indexed own member] at found
      exact ⟨line, own, (Option.some.inj found).symm⟩
    · rintro ⟨line, own, rfl⟩
      exact qualifiedName?_of_line indexed own member

private theorem Indexed.namedByLines (indexed : tree.Indexed) : tree.NamedByLines where
  finite := by
    intro id states initial rounds
    have bounded := (rounds tree.size).length_names.2
    rw [length_names_of_rounds initial rounds] at bounded
    omega
  answer := by
    intro id outcome
    constructor
    · rintro ⟨state, climbed, arrived⟩
      exact arrived.outcome_eq climbed
    · rintro rfl
      have started : ReflTransGen tree.Ascends (.initial tree id) (.initial tree id) := .refl
      obtain ⟨last, outcome, climbed, arrived⟩ := exists_arrival started
      exact ⟨last, climbed, arrived.outcome_eq climbed ▸ arrived⟩
  exact_iff := by
    intro id
    constructor
    · intro claimed absent
      obtain ⟨client, _, located, -⟩ := (claimed.named "").mp (qualifiedName?_of_absent absent)
      rw [absent] at located
      cases located
    · intro present
      obtain ⟨client, located⟩ := Option.ne_none_iff_exists'.mp present
      obtain ⟨member, rfl⟩ := indexed.client?_iff.mp located
      exact indexed.namedExactly member
  outside := fun _ absent => qualifiedName?_of_absent absent

/-- Names are exact in every tree that callers can have, save for ids from elsewhere. In a built tree
every client has one, and it tells the containers from a root container down to its own. -/
theorem qualifiedNames_exact {tree : ClientTree} (made : tree.Made) :
    tree.NamedByLines ∧
      ∀ (graph : ContainerGraph) (rule : PromotionRule), graph.Reachable → tree = build graph rule →
        ∀ client ∈ tree.clients,
          (∃ path, graph.NamedFrom client.container path) ∧
            ∀ path, graph.NamedFrom client.container path →
              tree.qualifiedName? client.id = some (String.intercalate "." path) := by
  refine ⟨made.indexed.namedByLines, ?_⟩
  rintro graph rule reachable rfl client member
  have nested : graph.WellNested := reachable.wellNested
  exact ⟨exists_named nested member, fun path named => qualifiedName?_of_named nested member named⟩

/-- The links of the adopted clients lead into a circle from every one of them, and the built tree
over the same graph names all of its clients. -/
theorem qualifiedNames_exact_loopedTree :
    (loopedTree.Made ∧ loopedTree.NamedByLines ∧ loopedTree.client? 1 ≠ none ∧
      loopedTree.qualifiedName? 1 = none) ∧
    (build ContainerGraph.twoServices .allNested).Made ∧ ContainerGraph.twoServices.Reachable ∧
      ⟨4, "E", 4, some 0⟩ ∈ (build ContainerGraph.twoServices .allNested).clients ∧
      ∀ path, ContainerGraph.twoServices.NamedFrom 4 path →
        (build ContainerGraph.twoServices .allNested).qualifiedName? 4 =
          some (String.intercalate "." path) := by
  have accepted : adopt ContainerGraph.twoServices .nonEmpty loopedClients = .ok loopedTree := by
    decide
  have reachable := ContainerGraph.reachable_twoServices
  have looped : loopedTree.Made := .adopted reachable accepted
  have built : (build ContainerGraph.twoServices .allNested).Made := .built .allNested reachable
  have member : ⟨4, "E", 4, some 0⟩ ∈ (build ContainerGraph.twoServices .allNested).clients := by
    decide
  have names := (qualifiedNames_exact built).2 _ .allNested reachable rfl _ member
  exact ⟨⟨looped, (qualifiedNames_exact looped).1, by decide, by decide⟩, built, reachable, member,
    names.2⟩

/-- An id outside the tree has a name all the same. -/
theorem qualifiedNames_unknownId :
    (build (.ofRoot "A") .allNested).Made ∧ (build (.ofRoot "A") .allNested).client? 7 = none ∧
      (build (.ofRoot "A") .allNested).qualifiedName? 7 ≠ none :=
  ⟨.built .allNested (ContainerGraph.reachable_ofRoot "A"), by decide, by decide⟩

end SdkClients.ClientTree
