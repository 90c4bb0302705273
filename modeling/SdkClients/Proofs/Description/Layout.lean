import SdkClients.Description.Lowering
import SdkClients.Proofs.ContainerGraph.Nesting

set_option autoImplicit false

/-!
Where a description ends up in its graph.

The containers of a declaration fill consecutive positions: its own comes first, then those of
its namespaces one after the other, and then those of its interfaces. Lowering writes exactly
this layout. It reaches it by adding containers at the end and by changing the one at hand, so
the graph of every description is one that calls lead to.
-/

namespace SdkClients

open ContainerGraph

def Container.withChildren (container : Container) (kind : ContainerKind)
    (children : List ContainerId) : Container :=
  match kind with
  | .nameSpace => { container with namespaces := container.namespaces ++ children }
  | .interface => { container with interfaces := container.interfaces ++ children }

private theorem Container.withChildren_nil (container : Container) (kind : ContainerKind) :
    container.withChildren kind [] = container := by
  cases kind <;> simp [withChildren]

private theorem Container.withChildren_cons (container : Container) (kind : ContainerKind)
    (child : ContainerId) (children : List ContainerId) :
    (container.withChild kind child).withChildren kind children =
      container.withChildren kind (child :: children) := by
  cases kind <;> simp [withChild, withChildren]

namespace ContainerDecl

mutual

def count : ContainerDecl → Nat
  | ⟨_, _, _, _, namespaces, interfaces⟩ => 1 + countAll namespaces + countAll interfaces

def countAll : List ContainerDecl → Nat
  | [] => 0
  | declaration :: others => count declaration + countAll others

end

/-- Where the declarations of a list begin when the first one begins at the given position. -/
def positions (next : ContainerId) : List ContainerDecl → List ContainerId
  | [] => []
  | declaration :: others => next :: positions (next + declaration.count) others

def container (parent : Option ContainerId) (kind : ContainerKind) (id : ContainerId)
    (declaration : ContainerDecl) : Container where
  name := declaration.name
  kind := kind
  operations := declaration.operations
  namespaces := positions (id + 1) declaration.namespaces
  interfaces := positions (id + 1 + countAll declaration.namespaces) declaration.interfaces
  parent := parent
  service := declaration.service
  client := declaration.client

mutual

/-- The containers of a declaration from the given position on. -/
def layout (parent : Option ContainerId) (kind : ContainerKind) (id : ContainerId) :
    ContainerDecl → List Container
  | ⟨name, service, client, operations, namespaces, interfaces⟩ =>
      container parent kind id ⟨name, service, client, operations, namespaces, interfaces⟩ ::
        (layoutAll id .nameSpace (id + 1) namespaces ++
          layoutAll id .interface (id + 1 + countAll namespaces) interfaces)

def layoutAll (outer : ContainerId) (kind : ContainerKind) (next : ContainerId) :
    List ContainerDecl → List Container
  | [] => []
  | declaration :: others =>
      layout (some outer) kind next declaration ++
        layoutAll outer kind (next + declaration.count) others

end

theorem layout_eq (parent : Option ContainerId) (kind : ContainerKind) (id : ContainerId)
    (declaration : ContainerDecl) :
    layout parent kind id declaration = container parent kind id declaration ::
      (layoutAll id .nameSpace (id + 1) declaration.namespaces ++
        layoutAll id .interface (id + 1 + countAll declaration.namespaces)
          declaration.interfaces) := by
  cases declaration
  rw [layout]

mutual

theorem length_layout (parent : Option ContainerId) (kind : ContainerKind) (id : ContainerId) :
    ∀ declaration, (layout parent kind id declaration).length = count declaration
  | ⟨_, _, _, _, namespaces, interfaces⟩ => by
      rw [layout, count, List.length_cons, List.length_append, length_layoutAll, length_layoutAll]
      omega

theorem length_layoutAll (outer : ContainerId) (kind : ContainerKind) (next : ContainerId) :
    ∀ declarations, (layoutAll outer kind next declarations).length = countAll declarations
  | [] => rfl
  | declaration :: others => by
      rw [layoutAll, countAll, List.length_append, length_layout, length_layoutAll]

end

theorem isEmpty_positions (next : ContainerId) (declarations : List ContainerDecl) :
    (positions next declarations).isEmpty = declarations.isEmpty := by
  cases declarations <;> rfl

/-! ### Lowering -/

private theorem update_middle (before after : List Container) (own : Container)
    (change : Container → Container) :
    (⟨before ++ own :: after⟩ : ContainerGraph).update before.length change =
      ⟨before ++ change own :: after⟩ := by
  have changed : (before ++ own :: after).modify before.length change =
      before ++ change own :: after := by
    induction before with
    | nil => rfl
    | cons head before ih =>
        rw [List.cons_append, List.length_cons, List.modify_succ_cons, ih, List.cons_append]
  exact congrArg ContainerGraph.mk changed

private theorem addChild_middle (before after : List Container) (own : Container)
    (kind : ContainerKind)
    (name : String) :
    (⟨before ++ own :: after⟩ : ContainerGraph).addChild kind before.length name =
      ⟨before ++ own.withChild kind (before.length + 1 + after.length) ::
        (after ++ [.bare name kind (some before.length)])⟩ := by
  have size : (⟨before ++ own :: after⟩ : ContainerGraph).size =
      before.length + 1 + after.length := by
    simp only [ContainerGraph.size, List.length_append, List.length_cons]
    omega
  unfold addChild
  rw [update_middle, size]
  simp only [List.append_assoc, List.cons_append]

private theorem addOperations_middle (before after : List Container) (own : Container)
    (operations : List String) :
    operations.foldl (fun graph operation => graph.addOperation before.length operation)
        (⟨before ++ own :: after⟩ : ContainerGraph) =
      ⟨before ++ { own with operations := own.operations ++ operations } :: after⟩ := by
  induction operations generalizing own with
  | nil => simp
  | cons operation operations ih =>
      rw [List.foldl_cons, addOperation, update_middle, ih]
      simp [Container.withOperation]

private theorem lowerOwn_last (before : List Container) (name : String) (kind : ContainerKind)
    (parent : Option ContainerId) (service client : Bool) (operations : List String) :
    lowerOwn ⟨before ++ [.bare name kind parent]⟩ before.length service client operations =
      ⟨before ++ [⟨name, kind, operations, [], [], parent, service, client⟩]⟩ := by
  unfold lowerOwn markService markClient
  cases service <;> cases client <;>
    simp only [Bool.false_eq_true, if_false, if_true, update_middle, addOperations_middle] <;> rfl

mutual

/-- The last container takes on its declaration, and what is declared inside is added behind
it. -/
private theorem lowerInto_last (before : List Container) (parent : Option ContainerId)
    (kind : ContainerKind) : ∀ declaration : ContainerDecl,
    lowerInto ⟨before ++ [.bare declaration.name kind parent]⟩ before.length declaration =
      ⟨before ++ layout parent kind before.length declaration⟩
  | ⟨name, service, client, operations, namespaces, interfaces⟩ => by
      have inner := length_layoutAll before.length .nameSpace (before.length + 1) namespaces
      have first := lowerList_middle before []
        ⟨name, kind, operations, [], [], parent, service, client⟩ .nameSpace namespaces
      have second := lowerList_middle before
        (layoutAll before.length .nameSpace (before.length + 1) namespaces)
        (Container.withChildren ⟨name, kind, operations, [], [], parent, service, client⟩
          .nameSpace (positions (before.length + 1) namespaces)) .interface interfaces
      rw [inner] at second
      simp only [List.length_nil, Nat.add_zero, List.nil_append] at first
      simp only [lowerInto, lowerOwn_last, first, second, layout]
      rfl

/-- Declarations that are added one after the other fill the positions at the end. -/
private theorem lowerList_middle (before after : List Container) (own : Container)
    (kind : ContainerKind) : ∀ declarations : List ContainerDecl,
    lowerList ⟨before ++ own :: after⟩ before.length kind declarations =
      ⟨before ++
        own.withChildren kind (positions (before.length + 1 + after.length) declarations) ::
          (after ++ layoutAll before.length kind (before.length + 1 + after.length)
            declarations)⟩
  | [] => by simp [lowerList, positions, layoutAll, Container.withChildren_nil]
  | declaration :: others => by
      -- the child comes last; all that is inside it then follows before its next sibling
      generalize place : before.length + 1 + after.length = next
      have size : (⟨before ++ own :: after⟩ : ContainerGraph).size = next := by
        simp only [ContainerGraph.size, List.length_append, List.length_cons]
        omega
      have length : (before ++ own.withChild kind next :: after).length = next := by
        rw [List.length_append, List.length_cons]
        omega
      have added := lowerInto_last (before ++ own.withChild kind next :: after)
        (some before.length) kind declaration
      rw [length, List.append_assoc, List.append_assoc, List.cons_append, List.cons_append] at added
      have rest := lowerList_middle before (after ++ layout (some before.length) kind next declaration)
        (own.withChild kind next) kind others
      have reached : before.length + 1 +
          (after ++ layout (some before.length) kind next declaration).length =
            next + declaration.count := by
        rw [List.length_append, length_layout]
        omega
      rw [reached] at rest
      rw [lowerList, addChild_middle, place, size, added, rest, Container.withChildren_cons,
        positions, layoutAll, List.append_assoc]

end

theorem lower_eq (declaration : ContainerDecl) :
    declaration.lower = ⟨layout none .nameSpace root declaration⟩ :=
  lowerInto_last [] none .nameSpace declaration

/-! ### Reachability -/

private theorem addOperations_reachable {graph : ContainerGraph} {id : ContainerId}
    (operations : List String) (reachable : graph.Reachable) (present : id < graph.size) :
    (operations.foldl (fun graph operation => graph.addOperation id operation) graph).Reachable ∧
      (operations.foldl (fun graph operation => graph.addOperation id operation) graph).size =
        graph.size := by
  induction operations generalizing graph with
  | nil => exact ⟨reachable, rfl⟩
  | cons operation operations ih =>
      have step : (graph.addOperation id operation).Reachable :=
        reachable.perform (.addOperation id operation) present
      have same : (graph.addOperation id operation).size = graph.size := size_update _ _ _
      rw [List.foldl_cons, ← same]
      exact ih step (same ▸ present)

private theorem lowerOwn_reachable {graph : ContainerGraph} {id : ContainerId}
    (service client : Bool)
    (operations : List String) (reachable : graph.Reachable) (present : id < graph.size) :
    (lowerOwn graph id service client operations).Reachable ∧
      (lowerOwn graph id service client operations).size = graph.size := by
  have serviceStep : (graph.markService id).Reachable :=
    reachable.perform (.markService id) present
  have sameAfterService : (graph.markService id).size = graph.size := size_update _ _ _
  have marked : ∀ other : ContainerGraph, other.Reachable → other.size = graph.size →
      (if client then other.markClient id else other).Reachable ∧
        (if client then other.markClient id else other).size = graph.size := by
    intro other otherReachable same
    cases client with
    | false => exact ⟨otherReachable, same⟩
    | true =>
        have clientStep : (other.markClient id).Reachable :=
          otherReachable.perform (.markClient id) (same.symm ▸ present)
        have sameAfterClient : (other.markClient id).size = other.size := size_update _ _ _
        exact ⟨clientStep, sameAfterClient.trans same⟩
  have start : (if service then graph.markService id else graph).Reachable ∧
      (if service then graph.markService id else graph).size = graph.size := by
    cases service with
    | false => exact ⟨reachable, rfl⟩
    | true => exact ⟨serviceStep, sameAfterService⟩
  obtain ⟨ready, size⟩ := marked _ start.1 start.2
  have filled := addOperations_reachable operations ready (size.symm ▸ present)
  exact ⟨filled.1, filled.2.trans size⟩

mutual

private theorem lowerInto_reachable : ∀ (declaration : ContainerDecl) {graph : ContainerGraph}
    {id : ContainerId}, graph.Reachable → id < graph.size →
    (lowerInto graph id declaration).Reachable ∧
      graph.size ≤ (lowerInto graph id declaration).size
  | ⟨_, service, client, operations, namespaces, interfaces⟩, graph, id, reachable, present => by
      obtain ⟨ownReachable, same⟩ :=
        lowerOwn_reachable service client operations reachable present
      obtain ⟨innerReachable, grown⟩ :=
        lowerList_reachable .nameSpace namespaces ownReachable (same.symm ▸ present)
      have stillPresent := Nat.lt_of_lt_of_le (same.symm ▸ present) grown
      obtain ⟨lastReachable, grownAgain⟩ :=
        lowerList_reachable .interface interfaces innerReachable stillPresent
      rw [lowerInto]
      exact ⟨lastReachable, Nat.le_trans (Nat.le_trans (Nat.le_of_eq same.symm) grown) grownAgain⟩

private theorem lowerList_reachable (kind : ContainerKind) : ∀ (declarations : List ContainerDecl)
    {graph : ContainerGraph} {id : ContainerId}, graph.Reachable → id < graph.size →
    (lowerList graph id kind declarations).Reachable ∧
      graph.size ≤ (lowerList graph id kind declarations).size
  | [], _, _, reachable, _ => ⟨reachable, Nat.le_refl _⟩
  | declaration :: others, graph, id, reachable, present => by
      have added : (graph.addChild kind id declaration.name).Reachable := by
        cases kind with
        | nameSpace => exact reachable.perform (.addNamespace id declaration.name) present
        | interface => exact reachable.perform (.addInterface id declaration.name) present
      have size := size_addChild graph kind id declaration.name
      obtain ⟨filled, grown⟩ := lowerInto_reachable declaration added
        (Nat.lt_of_lt_of_eq (Nat.lt_succ_self graph.size) size.symm)
      have grownOnce : graph.size ≤
          (lowerInto (graph.addChild kind id declaration.name) graph.size declaration).size :=
        Nat.le_trans (Nat.le_of_lt (Nat.lt_of_lt_of_eq (Nat.lt_succ_self _) size.symm)) grown
      obtain ⟨rest, grownAgain⟩ :=
        lowerList_reachable kind others filled (Nat.lt_of_lt_of_le present grownOnce)
      rw [lowerList]
      exact ⟨rest, Nat.le_trans grownOnce grownAgain⟩

end

theorem lower_reachable (declaration : ContainerDecl) : declaration.lower.Reachable :=
  (lowerInto_reachable declaration (reachable_ofRoot declaration.name) Nat.zero_lt_one).1

end ContainerDecl

end SdkClients
