import SdkClients.Proofs.ClientTree.Agreement
import SdkClients.Proofs.Decode.WrittenContainer
import SdkClients.Proofs.Description.Standing
import SdkClients.Proofs.Pointwise

set_option autoImplicit false

/-!
Reports say what the description says.

A client of a built tree stands for the placement that its container was laid out from. The
clients in their order stand for the placements in theirs, a listing stands for what is declared
inside a placement, and names and kinds agree. The report about a document is therefore the one
that can be read off its description, without a graph or a tree.
-/

namespace SdkClients

open ContainerGraph ClientTree ContainerDecl

variable {graph : ContainerGraph} {rule : PromotionRule}

/-- A client of a built tree whose container a placement stands at. -/
structure StandsFor (graph : ContainerGraph) (rule : PromotionRule) (client : Client)
    (placement : Placement) : Prop where
  member : client ∈ (build graph rule).clients
  stands : graph.StandsAt client.container placement

private theorem standFor_of_containers {clients : List Client} {placements : List Placement}
    (members : ∀ client ∈ clients, client ∈ (build graph rule).clients)
    (related : List.Forall₂ graph.StandsAt (clients.map Client.container) placements) :
    List.Forall₂ (StandsFor graph rule) clients placements := by
  induction clients generalizing placements with
  | nil =>
      cases related
      exact .nil
  | cons client clients ih =>
      cases related with
      | cons stands others =>
          obtain ⟨member, rest⟩ := List.forall_mem_cons.mp members
          exact .cons ⟨member, stands⟩ (ih rest others)

namespace StandsFor

variable {client : Client} {placement : Placement}

/-! ### What is said about a client -/

private theorem qualifiedName? (nested : graph.WellNested)
    (standsFor : StandsFor graph rule client placement) :
    (build graph rule).qualifiedName? client.id = some placement.qualifiedName :=
  qualifiedName?_of_named nested standsFor.member standsFor.stands.named

private theorem nameOf (nested : graph.WellNested)
    (standsFor : StandsFor graph rule client placement) :
    ClientReport.nameOf (build graph rule) client = placement.qualifiedName := by
  unfold ClientReport.nameOf
  rw [standsFor.qualifiedName? nested, Option.getD_some]

private theorem entryOf (nested : graph.WellNested)
    (standsFor : StandsFor graph rule client placement) :
    ClientReport.entryOf (build graph rule) client = .ok placement.entry := by
  obtain ⟨parent, found⟩ := standsFor.stands.exists_container
  have name : client.name = placement.declaration.name := name_of_found standsFor.member found
  unfold ClientReport.entryOf
  rw [build_graph, found, standsFor.nameOf nested, name]
  rfl

/-! ### Listings -/

private theorem nestedClients (nested : graph.WellNested)
    (standsFor : StandsFor graph rule client placement) :
    List.Forall₂ (StandsFor graph rule) ((build graph rule).nestedClients client)
      (placement.promotedMembers rule) := by
  refine standFor_of_containers (fun sub inside => (mem_nestedClients.mp inside).1) ?_
  rw [build_nested nested standsFor.member]
  exact standsFor.stands.promoted rule

private theorem settled (nested : graph.WellNested)
    (standsFor : StandsFor graph rule client placement) :
    Settled (Placement.promotedMembers .allNested) graph.size [placement] := by
  have forest : Forest (graph.promoted .allNested) [client.container] :=
    nested.forest_singleton nests_of_mem_promoted (nested.promoted_nodup .allNested) _
  have present : ∀ start ∈ [client.container], start < graph.size := by
    intro start only
    rw [List.mem_singleton.mp only]
    exact (build_indexed nested).placed client standsFor.member
  exact (nested.settled forest nests_of_mem_promoted present).of_forall₂
    (fun _ _ stands => stands.promoted .allNested) (.cons standsFor.stands .nil)

private theorem listing (nested : graph.WellNested)
    (standsFor : StandsFor graph rule client placement)
    {listed : List Client} (listing : (build graph rule).Listing client listed) :
    List.Forall₂ (StandsFor graph rule) listed (placement.listed rule true) := by
  obtain ⟨settledPlacements, related⟩ := listing_forall₂ nested
    (fun _ _ upperStands => upperStands.nestedClients nested) standsFor listing
  -- the graph may hold more containers than the tree has clients: both are fuel enough
  have levels : sweep (Placement.promotedMembers rule) (build graph rule).size [placement] =
      placement :: placement.listed rule true := by
    rw [← settledPlacements.of_le (build_size_le nested),
      Placement.sweep_promotedMembers rule (standsFor.settled nested), List.map_singleton,
      together_cons, together_nil, abreast_nil]
    rfl
  rw [levels] at related
  cases related with
  | cons _ others => exact others

private theorem subClients (nested : graph.WellNested)
    (standsFor : StandsFor graph rule client placement)
    (recursive : Bool) :
    ∃ listed, (build graph rule).subClients client.id recursive = .ok listed ∧
      List.Forall₂ (StandsFor graph rule) listed (placement.listed rule recursive) := by
  cases recursive with
  | false => exact ⟨_, subClients_direct nested standsFor.member, standsFor.nestedClients nested⟩
  | true =>
      obtain ⟨listed, listing, success⟩ := subClients_recursive nested standsFor.member
      exact ⟨listed, success, standsFor.listing nested listing⟩

end StandsFor

/-! ### The clients of a description -/

section Clients

variable {description : ContainerDecl}

private theorem rootClients_stand (nested : graph.WellNested)
    (same : graph = ⟨layout none .nameSpace root description⟩) :
    List.Forall₂ (StandsFor graph rule) (rootClients graph) description.roots := by
  refine standFor_of_containers (fun client member => ?_) ?_
  · rw [build_eq_append_brood nested]
    exact List.mem_append_left _ member
  · rw [rootClients_containers nested]
    exact roots_stand nested same

private theorem clients_stand (nested : graph.WellNested)
    (same : graph = ⟨layout none .nameSpace root description⟩) :
    List.Forall₂ (StandsFor graph rule) (build graph rule).clients
      (description.clientOrder rule) := by
  have start := roots_stand nested same
  have settled : Settled (Placement.promotedMembers .allNested) graph.size description.roots :=
    (nested.clients_settled .allNested).of_forall₂
      (fun _ _ stands => stands.promoted .allNested) start
  have related := sweep_forall₂ (fun _ _ stands => stands.promoted rule) graph.size start
  rw [Placement.sweep_promotedMembers rule settled] at related
  refine standFor_of_containers (fun client member => member) ?_
  rw [build_containers nested]
  exact related

private theorem build_roots (nested : graph.WellNested) :
    (build graph rule).roots = rootClients graph := by
  have rootsKept : (rootClients graph).filter (fun client => client.parent.isNone) =
      rootClients graph := by
    refine List.filter_eq_self.mpr fun client member => ?_
    rw [parent_of_mem_rootClients member]
    rfl
  have othersDropped : ∀ next clients,
      (brood graph rule next clients).filter (fun client => client.parent.isNone) = [] := by
    intro next clients
    refine List.filter_eq_nil_iff.mpr fun client member => ?_
    obtain ⟨parent, -, link⟩ := parent_of_mem_brood member
    simp [link]
  unfold ClientTree.roots
  rw [build_eq_append_brood nested, List.filter_append, rootsKept, othersDropped, List.append_nil]

private theorem roots_eq_cons (description : ContainerDecl) :
    ∃ others, description.roots = description.firstRoot :: others := by
  unfold ContainerDecl.roots firstRoot
  cases description.serviceRoots .nameSpace with
  | nil => exact ⟨[], rfl⟩
  | cons first others => exact ⟨others, rfl⟩

theorem find?_stands (nested : graph.WellNested)
    (same : graph = ⟨layout none .nameSpace root description⟩) (name : String) :
    Option.Rel (StandsFor graph rule) ((build graph rule).find? name)
      (description.placement? rule name) := by
  refine find?_forall₂ ?_ (clients_stand nested same)
  intro client placement standsFor
  rw [standsFor.qualifiedName? nested]
  rfl

end Clients

/-! ### Reports -/

namespace ClientReport

private theorem ofTree_of_standsFor (nested : graph.WellNested) {query : ClientQuery}
    {source : String}
    {client : Client} {placement : Placement}
    (standsFor : StandsFor graph query.rule client placement)
    (chosen : clientOf query source (build graph query.rule) = .ok client) :
    ofTree query source (build graph query.rule) = .ok (placement.report query source) := by
  obtain ⟨listed, success, related⟩ := standsFor.subClients nested query.recursive
  have entries : listed.mapM (entryOf (build graph query.rule)) =
      .ok ((placement.listed query.rule query.recursive).map Placement.entry) := by
    refine mapM_eq_ok_iff.mpr (List.forall₂_map_right_iff.mpr (related.imp ?_))
    intro sub inner subStands
    exact subStands.entryOf nested
  unfold ofTree
  rw [chosen, ok_bind, success]
  simp only [Except.mapError, ok_bind, entries, standsFor.nameOf nested]
  rfl

/-- The report about a description that was laid out as a graph is the one read off it. -/
theorem ofTree_lower (query : ClientQuery) (source : String) (description : ContainerDecl) :
    ofTree query source (build description.lower query.rule) =
      description.report query source := by
  have nested : description.lower.WellNested := description.lower_reachable.wellNested
  have same := lower_eq description
  unfold ContainerDecl.report
  cases asked : query.client with
  | none =>
      obtain ⟨others, roots⟩ := roots_eq_cons description
      have related : List.Forall₂ (StandsFor description.lower query.rule)
          (rootClients description.lower) description.roots := rootClients_stand nested same
      rw [roots, ← build_roots nested] at related
      generalize clients : (build description.lower query.rule).roots = rootClients at related
      cases related with
      | cons standsFor _ =>
          refine ofTree_of_standsFor nested standsFor ?_
          simp only [clientOf, asked, clients]
  | some name =>
      have found : Option.Rel (StandsFor description.lower query.rule)
          ((build description.lower query.rule).find? name)
          (description.placement? query.rule name) := find?_stands nested same name
      dsimp only
      generalize searched : (build description.lower query.rule).find? name = client at found
      generalize description.placement? query.rule name = placement at found ⊢
      cases found with
      | none => simp only [ofTree, clientOf, asked, searched, error_bind]
      | some standsFor =>
          refine ofTree_of_standsFor nested standsFor ?_
          simp only [clientOf, asked, searched]

/-- A service with two levels inside it, one of which holds nothing. -/
def sampleDescription : ContainerDecl :=
  ⟨"A", false, false, [],
    [⟨"B", true, false, [], [⟨"C", false, false, [], [], [⟨"D", false, false, ["run"], [], []⟩]⟩],
      [⟨"E", false, false, [], [], []⟩]⟩], []⟩

example : sampleDescription.report ⟨none, true, .nonEmpty⟩ "s" =
    .ok ⟨"s", "B", [⟨"C", "B.C", .nameSpace⟩, ⟨"D", "B.C.D", .interface⟩]⟩ := by
  rfl

/-- Decoding, lowering, building, listing and naming together give the report that is read off
the description: for every description as it is written, and for any other document that decodes
to one. -/
theorem ofDocument_eq_report (query : ClientQuery) (source : String) :
    (∀ description : ContainerDecl,
      ofDocument query ⟨source, description.toJson⟩ = description.report query source) ∧
    ∀ value, ofDocument query ⟨source, value⟩ =
      match Decode.fromValue Decode.readContainer value with
      | .error failure => .error (.notDescription source failure)
      | .ok description => description.report query source := by
  have general : ∀ value, ofDocument query ⟨source, value⟩ =
      match Decode.fromValue Decode.readContainer value with
      | .error failure => .error (.notDescription source failure)
      | .ok description => description.report query source := by
    intro value
    unfold ofDocument
    cases Decode.fromValue Decode.readContainer value with
    | error failure => rfl
    | ok description => exact ofTree_lower query source description
  refine ⟨?_, general⟩
  intro description
  rw [general, Decode.fromValue_toJson]

end ClientReport

end SdkClients
