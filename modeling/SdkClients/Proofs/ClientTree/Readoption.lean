import SdkClients.Proofs.ClientTree.Agreement
import SdkClients.Proofs.ClientTree.LevelOrder

set_option autoImplicit false

/-!
Adopting the clients of a built tree again, under a rule of their own.

The clients of a built tree pass every check of adoption, and the pass enters them into an index
that says what the index of the built tree says. Look-ups read the clients and the index only, so
they do not see the rule. A listing asks the rule about nested containers without a client:
a rule that rejects what the first one rejected changes nothing, and the rule that rejects
nothing ends the listing at the first such container.
-/

namespace SdkClients.ClientTree

open ContainerGraph

variable {graph : ContainerGraph} {tree : ClientTree} {rule first second : PromotionRule}

/-- The same clients and index over the same graph under another rule. -/
def underRule (tree : ClientTree) (rule : PromotionRule) : ClientTree :=
  { tree with rule := rule }

/-! ### Look-ups -/

structure LooksUpAlike (tree other : ClientTree) : Prop where
  index : ∀ container,
    Keyed.get? tree.byContainer container = Keyed.get? other.byContainer container
  client : ∀ id, tree.client? id = other.client? id
  clientFor : ∀ container, tree.clientFor? container = other.clientFor? container
  parent : ∀ id, tree.parent? id = other.parent? id
  qualifiedName : ∀ id, tree.qualifiedName? id = other.qualifiedName? id
  find : ∀ name, tree.find? name = other.find? name

section

variable {other : ClientTree} (clients : tree.clients = other.clients)

include clients

private theorem client?_congr : tree.client? = other.client? := by
  funext id
  unfold client?
  rw [clients]

private theorem namesUpward_congr (allowed : Nat) (client : Option Client) :
    tree.namesUpward allowed client = other.namesUpward allowed client := by
  induction allowed generalizing client with
  | zero => cases client <;> rfl
  | succ allowed ih =>
      cases client with
      | none => rfl
      | some client => rw [namesUpward, namesUpward, ih, client?_congr clients]

private theorem qualifiedName?_congr : tree.qualifiedName? = other.qualifiedName? := by
  funext id
  unfold qualifiedName? size
  rw [clients, client?_congr clients, namesUpward_congr clients]

private theorem looksUpAlike_of_eq (index : tree.byContainer = other.byContainer) :
    tree.LooksUpAlike other where
  index := fun container => by rw [index]
  client := congrFun (client?_congr clients)
  clientFor := by
    intro container
    unfold clientFor?
    rw [index, client?_congr clients]
  parent := by
    intro id
    unfold parent?
    rw [client?_congr clients]
  qualifiedName := congrFun (qualifiedName?_congr clients)
  find := by
    intro name
    unfold find?
    rw [clients, qualifiedName?_congr clients]

end

private theorem Indexed.underRule (indexed : tree.Indexed) (rule : PromotionRule) :
    (tree.underRule rule).Indexed :=
  ⟨indexed.ids, indexed.distinct, indexed.placed, indexed.linked, indexed.entered⟩

/-! ### Listings as one pass over a sweep -/

/-- The clients that a queue goes through do not depend on what can be listed, so a listing is
one pass over them, up to the first one that fails. -/
private theorem listFrom_eq_mapM (fuel : Nat) (queue : List Client) :
    tree.listFrom fuel queue =
      (((sweep tree.clientsInside fuel queue).take fuel).mapM tree.directSubClients).map
        List.flatten := by
  induction fuel generalizing queue with
  | zero => cases queue <;> rfl
  | succ fuel ih =>
      cases queue with
      | nil => rfl
      | cons head queue =>
          rw [listFrom, sweep, List.take_succ_cons, List.mapM_cons]
          cases direct : tree.directSubClients head with
          | error failure => rfl
          | ok level =>
              rw [(directSubClients_eq_ok_iff.mp direct).2, ok_bind, ok_bind, ih]
              cases ((sweep tree.clientsInside fuel
                (queue ++ tree.clientsInside head)).take fuel).mapM tree.directSubClients <;> rfl

private theorem subClients_eq_mapM (indexed : tree.Indexed) (nested : tree.graph.WellNested)
    {start : Client} (member : start ∈ tree.clients) :
    tree.subClients start.id true =
      ((sweep tree.clientsInside tree.size [start]).mapM tree.directSubClients).map
        List.flatten := by
  have settled := inside_settled indexed nested member
  rw [subClients_true indexed member, listFrom_eq_mapM, List.take_of_length_le settled]

/-- Under another rule the same clients are gone through as in a listing that succeeds. -/
private theorem Listing.underRule {start : Client} {listed : List Client}
    (listing : tree.Listing start listed) (rule : PromotionRule) :
    (tree.underRule rule).subClients start.id true =
      ((start :: listed).mapM (tree.underRule rule).directSubClients).map List.flatten := by
  rw [subClients_eq_mapM (listing.indexed.underRule rule) listing.nested listing.member]
  exact congrArg (fun visited : List Client =>
    (visited.mapM (tree.underRule rule).directSubClients).map List.flatten) listing.swept

/-! ### Built trees -/

private theorem adopt_build (nested : graph.WellNested) (first second : PromotionRule) :
    adopt graph second (build graph first).clients = .ok ((build graph first).underRule second) := by
  have indexed : (build graph first).Indexed := build_indexed nested
  -- what adoption enters client by client is what building has put in as it made them
  have entered : (build graph first).underRule second =
      ⟨graph, second, (build graph first).clients, indexOf (build graph first).clients⟩ := by
    rw [← indexed.entered]
    rfl
  exact adopt_eq_ok_iff.mpr ⟨entered, indexed.underRule second⟩

private theorem looksUpAlike_of_adopt (nested : graph.WellNested)
    (accepted : adopt graph second (build graph first).clients = .ok tree) :
    tree.LooksUpAlike (build graph first) := by
  obtain ⟨rfl, -⟩ := adopt_eq_ok_iff.mp accepted
  exact looksUpAlike_of_eq rfl (build_indexed nested).entered.symm

/-- What a listing under another rule gives, if anything, is what it gave before. -/
private theorem directSubClients_of_underRule (nested : graph.WellNested) {client : Client}
    (member : client ∈ (build graph first).clients) {listed : List Client}
    (success : ((build graph first).underRule second).directSubClients client = .ok listed) :
    (build graph first).directSubClients client = .ok listed := by
  rw [directSubClients_eq_ok_iff] at success ⊢
  exact ⟨build_listable nested member, success.2⟩

private theorem subClients_of_underRule (nested : graph.WellNested) {client : Client}
    (member : client ∈ (build graph first).clients) {recursive : Bool} {listed : List Client}
    (success : ((build graph first).underRule second).subClients client.id recursive = .ok listed) :
    (build graph first).subClients client.id recursive = .ok listed := by
  have indexed : (build graph first).Indexed := build_indexed nested
  cases recursive with
  | false =>
      rw [subClients_false (indexed.underRule second) member] at success
      rw [subClients_false indexed member]
      exact directSubClients_of_underRule nested member success
  | true =>
      have listing := (subClients_eq_ok_iff (indexed.underRule second) nested member).mp success
      apply (subClients_eq_ok_iff indexed nested member).mpr
      refine ⟨indexed, nested, member, listing.swept, ?_⟩
      intro taken inside
      exact build_listable nested (listing.mem_clients inside)

/-! ### A rule that rejects no less -/

private theorem Listable.underRule {client : Client} (listable : tree.Listable client)
    (rejects : ∀ container, tree.rule.qualifies container = false →
      rule.qualifies container = false) :
    (tree.underRule rule).Listable client := by
  refine ⟨listable.1, ?_⟩
  intro child nests
  obtain ⟨container, found, linked, rejected⟩ := listable.2 child nests
  exact ⟨container, found, linked, fun vacant => rejects container (rejected vacant)⟩

private theorem exists_subClients_underRule (nested : graph.WellNested) {client : Client}
    (member : client ∈ (build graph first).clients)
    (rejects : ∀ container, first.qualifies container = false →
      second.qualifies container = false) (recursive : Bool) :
    ∃ listed, ((build graph first).underRule second).subClients client.id recursive =
      .ok listed := by
  have indexed : (build graph first).Indexed := build_indexed nested
  cases recursive with
  | false =>
      rw [subClients_false (indexed.underRule second) member]
      exact ⟨_, directSubClients_eq_ok_iff.mpr ⟨(build_listable nested member).underRule rejects, rfl⟩⟩
  | true =>
      obtain ⟨listed, listing⟩ := exists_listing nested member
      refine ⟨listed, (subClients_eq_ok_iff (indexed.underRule second) nested member).mpr ?_⟩
      refine ⟨indexed.underRule second, nested, member, listing.swept, ?_⟩
      intro taken inside
      exact (listing.listable taken inside).underRule rejects

private theorem subClients_unknown {id : ClientId} (absent : tree.client? id = none)
    (recursive : Bool) :
    tree.subClients id recursive = .error (.unknownClient id) := by
  unfold subClients
  rw [absent]

private theorem subClients_underRule (nested : graph.WellNested)
    (rejects : ∀ container, first.qualifies container = false →
      second.qualifies container = false) (id : ClientId) (recursive : Bool) :
    ((build graph first).underRule second).subClients id recursive =
      (build graph first).subClients id recursive := by
  cases found : (build graph first).client? id with
  | none =>
      have absent : ((build graph first).underRule second).client? id = none := found
      rw [subClients_unknown found, subClients_unknown absent]
  | some client =>
      obtain ⟨member, rfl⟩ := (build_indexed nested).client?_iff.mp found
      obtain ⟨listed, success⟩ := exists_subClients_underRule nested member rejects recursive
      rw [success, subClients_of_underRule nested member success]

private theorem rejects_of_eq_or_nonEmpty (narrower : second = first ∨ second = .nonEmpty)
    (container : Container) (rejected : first.qualifies container = false) :
    second.qualifies container = false := by
  rcases narrower with rfl | rfl
  · exact rejected
  · exact rejected_iff.mpr ⟨rfl, (rejected_iff.mp rejected).2⟩

/-! ### The rule that rejects nothing -/

/-- Parent links of a built tree always lead back, so only a gap can stop a listing. -/
private theorem stopsAt_allNested_iff (nested : graph.WellNested) {client : Client}
    {child : ContainerId}
    (member : client ∈ (build graph first).clients) (nests : graph.Nests client.container child)
    {failure : ListingError} :
    ((build graph first).underRule .allNested).StopsAt client child failure ↔
      (build graph first).clientFor? child = none ∧
        ∃ container, graph.container? child = some container ∧
          failure = .missingClient container.name := by
  constructor
  · intro stops
    cases stops with
    | mismatch present elsewhere =>
        obtain ⟨-, -, linked, -⟩ := (build_listable nested member).2 child nests
        exact absurd (linked _ present) elsewhere
    | missing found absent _ => exact ⟨absent, _, found, rfl⟩
  · rintro ⟨absent, container, found, rfl⟩
    exact .missing found absent rfl

private theorem not_stopsAt_allNested_iff (nested : graph.WellNested) {client : Client}
    {child : ContainerId} (member : client ∈ (build graph first).clients)
    (nests : graph.Nests client.container child) :
    (∀ reason, ¬ ((build graph first).underRule .allNested).StopsAt client child reason) ↔
      (build graph first).clientFor? child ≠ none := by
  obtain ⟨container, found⟩ := exists_container_of_lt (nested.inner_lt_size nests)
  constructor
  · intro passes absent
    apply passes (.missingClient container.name)
    exact (stopsAt_allNested_iff nested member nests).mpr ⟨absent, container, found, rfl⟩
  · intro present reason stops
    exact present ((stopsAt_allNested_iff nested member nests).mp stops).1

private theorem directSubClients_allNested_eq_error_iff (nested : graph.WellNested)
    {client : Client}
    (member : client ∈ (build graph first).clients) {container : Container}
    (found : graph.container? client.container = some container) {failure : ListingError} :
    ((build graph first).underRule .allNested).directSubClients client = .error failure ↔
      ∃ before child after missing, container.children = before ++ child :: after ∧
        (∀ earlier ∈ before, (build graph first).clientFor? earlier ≠ none) ∧
        (build graph first).clientFor? child = none ∧
        graph.container? child = some missing ∧ failure = .missingClient missing.name := by
  have nests : ∀ child ∈ container.children, graph.Nests client.container child :=
    fun child inside => ⟨container, found, inside⟩
  apply Iff.trans (directSubClients_eq_error_iff nested found)
  constructor
  · rintro ⟨before, child, after, split, passed, stops⟩
    obtain ⟨nestsBefore, nestsRest⟩ := List.forall_mem_append.mp (split ▸ nests)
    have nestsChild := nestsRest child List.mem_cons_self
    obtain ⟨absent, missing, known, named⟩ := (stopsAt_allNested_iff nested member nestsChild).mp stops
    refine ⟨before, child, after, missing, split, ?_, absent, known, named⟩
    intro earlier inside
    exact (not_stopsAt_allNested_iff nested member (nestsBefore earlier inside)).mp
      (passed earlier inside)
  · rintro ⟨before, child, after, missing, split, passed, absent, known, named⟩
    obtain ⟨nestsBefore, nestsRest⟩ := List.forall_mem_append.mp (split ▸ nests)
    have nestsChild := nestsRest child List.mem_cons_self
    refine ⟨before, child, after, split, ?_,
      (stopsAt_allNested_iff nested member nestsChild).mpr ⟨absent, missing, known, named⟩⟩
    intro earlier inside
    exact (not_stopsAt_allNested_iff nested member (nestsBefore earlier inside)).mpr
      (passed earlier inside)

private theorem directSubClients_allNested_fails_iff (nested : graph.WellNested) {client : Client}
    (member : client ∈ (build graph first).clients) {container : Container}
    (found : graph.container? client.container = some container) :
    (∃ failure, ((build graph first).underRule .allNested).directSubClients client =
        .error failure) ↔
      ∃ child ∈ container.children, (build graph first).clientFor? child = none := by
  have each : ∀ child ∈ container.children,
      (∃ failure, ((build graph first).underRule .allNested).subClient client child =
        .error failure) ↔ (build graph first).clientFor? child = none := by
    intro child inside
    have nests : graph.Nests client.container child := ⟨container, found, inside⟩
    have present : child < graph.size := nested.inner_lt_size nests
    obtain ⟨missing, known⟩ := exists_container_of_lt present
    have outcome : ∀ failure,
        ((build graph first).underRule .allNested).subClient client child = .error failure ↔
          (build graph first).clientFor? child = none ∧ failure = .missingClient missing.name := by
      intro failure
      apply Iff.trans (subClient_eq_error_iff present)
      simp [stopsAt_allNested_iff nested member nests, known]
    simp only [outcome, exists_and_left, exists_eq, and_true]
  have passed : ((build graph first).underRule .allNested).directSubClients client =
      ((build graph first).underRule .allNested).subClientsOf client container.children :=
    directSubClients_of_container found
  rw [passed, subClientsOf_eq_mapM]
  simp only [map_eq_error_iff, exists_mapM_eq_error_iff]
  refine exists_congr fun child => ?_
  constructor
  · rintro ⟨inside, failed⟩
    exact ⟨inside, (each child inside).mp failed⟩
  · rintro ⟨inside, absent⟩
    exact ⟨inside, (each child inside).mpr absent⟩

/-! ### Answers of the adopted tree -/

/-- Listings of a tree go as far as those of a built one do, up to the first nested container
without a client. -/
structure ListsUpToGaps (tree built : ClientTree) : Prop where
  /-- Namespaces are looked at first and then interfaces, and the first gap ends the listing. -/
  direct : ∀ client ∈ built.clients, ∃ container,
    built.graph.container? client.container = some container ∧
    ((∃ failure, tree.subClients client.id false = .error failure) ↔
      ∃ child ∈ container.namespaces ++ container.interfaces, built.clientFor? child = none) ∧
    ∀ failure, tree.subClients client.id false = .error failure ↔
      ∃ before child after missing,
        container.namespaces ++ container.interfaces = before ++ child :: after ∧
        (∀ earlier ∈ before, built.clientFor? earlier ≠ none) ∧
        built.clientFor? child = none ∧ built.graph.container? child = some missing ∧
        failure = .missingClient missing.name
  /-- A recursive listing fails as the first client does, level by level, that has a gap. -/
  recursive : ∀ client ∈ built.clients, ∃ levels : List (List Client),
    (∀ depth, built.level [client] (depth + 1) = .ok (levels.getD depth [])) ∧
    (∀ sub, sub ∈ levels.flatten ↔
      sub ∈ built.clients ∧ Relation.TransGen built.LinksTo sub client) ∧
    ((∃ failure, tree.subClients client.id true = .error failure) ↔
      ∃ sub ∈ client :: levels.flatten, ∃ failure,
        tree.subClients sub.id false = .error failure) ∧
    ∀ failure, tree.subClients client.id true = .error failure ↔
      ∃ before failing after, client :: levels.flatten = before ++ failing :: after ∧
        (∀ earlier ∈ before, ∃ listed, tree.subClients earlier.id false = .ok listed) ∧
        tree.subClients failing.id false = .error failure
  /-- Where no client's listing fails, nothing has changed. -/
  otherwise : ∀ id recursive,
    (∀ client ∈ built.clients, client.id = id →
      ∃ listed, tree.subClients id recursive = .ok listed) →
    tree.subClients id recursive = built.subClients id recursive

private theorem direct_underRule_allNested (nested : graph.WellNested) {client : Client}
    (member : client ∈ (build graph first).clients) :
    ∃ container, graph.container? client.container = some container ∧
      ((∃ failure, ((build graph first).underRule .allNested).subClients client.id false =
          .error failure) ↔
        ∃ child ∈ container.namespaces ++ container.interfaces,
          (build graph first).clientFor? child = none) ∧
      ∀ failure,
        ((build graph first).underRule .allNested).subClients client.id false = .error failure ↔
          ∃ before child after missing,
            container.namespaces ++ container.interfaces = before ++ child :: after ∧
            (∀ earlier ∈ before, (build graph first).clientFor? earlier ≠ none) ∧
            (build graph first).clientFor? child = none ∧
            graph.container? child = some missing ∧ failure = .missingClient missing.name := by
  have indexed : (build graph first).Indexed := build_indexed nested
  obtain ⟨container, found⟩ : ∃ container, graph.container? client.container = some container :=
    exists_container_of_lt (indexed.placed client member)
  rw [subClients_false (indexed.underRule .allNested) member]
  refine ⟨container, found, directSubClients_allNested_fails_iff nested member found, ?_⟩
  intro failure
  exact directSubClients_allNested_eq_error_iff nested member found

/-- A recursive listing under any rule fails exactly as a direct one on its way does. -/
private theorem recursive_underRule_eq_error_iff {start : Client} {listed : List Client}
    (listing : tree.Listing start listed) {failure : ListingError} :
    (tree.underRule rule).subClients start.id true = .error failure ↔
      ∃ before failing after, start :: listed = before ++ failing :: after ∧
        (∀ earlier ∈ before, ∃ direct,
          (tree.underRule rule).subClients earlier.id false = .ok direct) ∧
        (tree.underRule rule).subClients failing.id false = .error failure := by
  have direct : ∀ sub ∈ start :: listed,
      (tree.underRule rule).subClients sub.id false = (tree.underRule rule).directSubClients sub :=
    fun sub taken =>
      subClients_false (listing.indexed.underRule rule) (listing.mem_clients taken)
  rw [listing.underRule, map_eq_error_iff, mapM_eq_error_iff]
  refine exists_congr fun before => exists_congr fun failing => exists_congr fun after => ?_
  refine and_congr_right fun split => ?_
  rw [split] at direct
  obtain ⟨directBefore, directRest⟩ := List.forall_mem_append.mp direct
  rw [directRest failing List.mem_cons_self]
  refine and_congr_left fun _ => forall₂_congr fun earlier inside => ?_
  rw [directBefore earlier inside]

private theorem recursive_underRule_fails_iff {start : Client} {listed : List Client}
    (listing : tree.Listing start listed) :
    (∃ failure, (tree.underRule rule).subClients start.id true = .error failure) ↔
      ∃ sub ∈ start :: listed, ∃ failure,
        (tree.underRule rule).subClients sub.id false = .error failure := by
  rw [listing.underRule]
  simp only [map_eq_error_iff, exists_mapM_eq_error_iff]
  refine exists_congr fun sub => and_congr_right fun taken => ?_
  rw [subClients_false (listing.indexed.underRule rule) (listing.mem_clients taken)]

private theorem recursive_underRule (nested : graph.WellNested) {client : Client}
    (member : client ∈ (build graph first).clients) :
    ∃ levels : List (List Client),
      (∀ depth, (build graph first).level [client] (depth + 1) = .ok (levels.getD depth [])) ∧
      (∀ sub, sub ∈ levels.flatten ↔ sub ∈ (build graph first).clients ∧
        Relation.TransGen (build graph first).LinksTo sub client) ∧
      (build graph first).Listing client levels.flatten := by
  have indexed : (build graph first).Indexed := build_indexed nested
  obtain ⟨listed, listing, success⟩ := subClients_recursive nested member
  obtain ⟨levels, made, rfl⟩ := (subClients_eq_ok_iff_levels indexed nested member).mp success
  exact ⟨levels, made, fun sub => listing.mem_iff_steps.trans (steps_iff_links nested member),
    listing⟩

private theorem listsUpToGaps_underRule (nested : graph.WellNested) (first : PromotionRule) :
    ((build graph first).underRule .allNested).ListsUpToGaps (build graph first) where
  direct := fun client member => direct_underRule_allNested nested member
  recursive := by
    intro client member
    obtain ⟨levels, made, inside, listing⟩ := recursive_underRule nested member
    refine ⟨levels, made, inside, recursive_underRule_fails_iff listing, ?_⟩
    intro failure
    exact recursive_underRule_eq_error_iff listing
  otherwise := by
    intro id recursive succeeds
    cases found : (build graph first).client? id with
    | none =>
        have absent : ((build graph first).underRule .allNested).client? id = none := found
        rw [subClients_unknown found, subClients_unknown absent]
    | some client =>
        obtain ⟨member, rfl⟩ := (build_indexed nested).client?_iff.mp found
        obtain ⟨listed, success⟩ := succeeds client member rfl
        rw [success, subClients_of_underRule nested member success]

/-- What a tree answers that was adopted from the clients of a built one. -/
structure Readopts (tree : ClientTree) (graph : ContainerGraph)
    (first second : PromotionRule) : Prop where
  parts : tree = ⟨graph, second, (build graph first).clients, (build graph first).byContainer⟩
  lookUps : tree.LooksUpAlike (build graph first)
  /-- The same rule, or the one that rejects more, asks for no further clients. -/
  narrower : second = first ∨ second = .nonEmpty → ∀ id recursive,
    tree.subClients id recursive = (build graph first).subClients id recursive
  wider : first = .nonEmpty → second = .allNested → tree.ListsUpToGaps (build graph first)

/-- Clients that were built pass adoption under every rule. -/
theorem adopt_build_readopts (reachable : graph.Reachable) (first second : PromotionRule) :
    ∃ tree, adopt graph second (build graph first).clients = .ok tree ∧
      tree.Readopts graph first second := by
  have nested : graph.WellNested := reachable.wellNested
  have accepted := adopt_build nested first second
  refine ⟨(build graph first).underRule second, accepted, rfl,
    looksUpAlike_of_adopt nested accepted, ?_, ?_⟩
  · intro narrower
    exact subClients_underRule nested (rejects_of_eq_or_nonEmpty narrower)
  · intro _ every
    rw [every]
    exact listsUpToGaps_underRule nested first

theorem adopt_build_readopts_twoServices :
    twoServices.Reachable ∧
      (∃ tree, adopt twoServices .allNested (build twoServices .nonEmpty).clients = .ok tree ∧
        tree.Readopts twoServices .nonEmpty .allNested) ∧
      (adopt twoServices .allNested (build twoServices .nonEmpty).clients).map
          (fun tree => [tree.subClients 0 false, tree.subClients 0 true, tree.subClients 1 true]) =
        .ok [.error (.missingClient "F"), .error (.missingClient "F"), .ok []] :=
  ⟨reachable_twoServices, adopt_build_readopts reachable_twoServices .nonEmpty .allNested, by decide⟩

end SdkClients.ClientTree
