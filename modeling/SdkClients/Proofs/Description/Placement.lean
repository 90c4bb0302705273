import SdkClients.ClientReport
import SdkClients.Proofs.Levels

set_option autoImplicit false

/-!
Reading a report off a description.

No graph and no client tree is needed to say what a report contains: the declarations
themselves say it. A placement is a declaration together with the kind of the list it stands in
and the names from its root down to it. The roots are the topmost services in the order in which
they are written down, or the whole description where nothing is marked, and below a placement
the declarations are read level by level.
-/

namespace SdkClients

/-- Whether a rule promotes a nested declaration: every one, or those with operations, nested
declarations or a mark. -/
def ContainerDecl.promotedBy (declaration : ContainerDecl) : PromotionRule → Bool
  | .allNested => true
  | .nonEmpty =>
      !declaration.operations.isEmpty || !declaration.namespaces.isEmpty ||
        !declaration.interfaces.isEmpty || declaration.service || declaration.client

/-- A declaration, the kind of the list it stands in, and the names from its root down. -/
structure Placement where
  declaration : ContainerDecl
  kind : ContainerKind
  path : List String
deriving Repr

namespace Placement

def top (kind : ContainerKind) (declaration : ContainerDecl) : Placement :=
  ⟨declaration, kind, [declaration.name]⟩

def inside (path : List String) (kind : ContainerKind) (declaration : ContainerDecl) : Placement :=
  ⟨declaration, kind, path ++ [declaration.name]⟩

def qualifiedName (placement : Placement) : String := String.intercalate "." placement.path

def entry (placement : Placement) : SubClientEntry :=
  ⟨placement.declaration.name, placement.qualifiedName, placement.kind⟩

def promotedBy (rule : PromotionRule) (placement : Placement) : Bool :=
  placement.declaration.promotedBy rule

/-- What is declared right inside: namespaces first, then interfaces. -/
def members (placement : Placement) : List Placement :=
  placement.declaration.namespaces.map (inside placement.path .nameSpace) ++
    placement.declaration.interfaces.map (inside placement.path .interface)

end Placement

namespace ContainerDecl

mutual

/-- What is declared inside, level by level; the path leads to the declaration itself. -/
def generations (path : List String) : ContainerDecl → List (List Placement)
  | ⟨_, _, _, _, namespaces, interfaces⟩ =>
      abreast (generationsOf path .nameSpace namespaces)
        (generationsOf path .interface interfaces)

/-- The declarations of a list and what is declared inside them, level by level. -/
def generationsOf (path : List String) (kind : ContainerKind) :
    List ContainerDecl → List (List Placement)
  | [] => []
  | declaration :: others =>
      abreast ([.inside path kind declaration] ::
          generations (path ++ [declaration.name]) declaration)
        (generationsOf path kind others)

end

mutual

/-- The topmost services: the declaration itself if it is marked, and otherwise those of what
is declared inside, in the order in which they are written down. -/
def serviceRoots (kind : ContainerKind) : ContainerDecl → List Placement
  | ⟨name, service, client, operations, namespaces, interfaces⟩ =>
      if service then [.top kind ⟨name, service, client, operations, namespaces, interfaces⟩]
      else serviceRootsAmong .nameSpace namespaces ++ serviceRootsAmong .interface interfaces

def serviceRootsAmong (kind : ContainerKind) : List ContainerDecl → List Placement
  | [] => []
  | declaration :: others => serviceRoots kind declaration ++ serviceRootsAmong kind others

end

end ContainerDecl

namespace Placement

def generations (placement : Placement) : List (List Placement) :=
  placement.declaration.generations placement.path

/-- The promoted declarations right inside, or all of those strictly inside. -/
def listed (placement : Placement) (rule : PromotionRule) (recursive : Bool) : List Placement :=
  (if recursive then placement.generations.flatten else placement.members).filter
    (promotedBy rule)

def report (placement : Placement) (query : ClientQuery) (source : String) : ClientReport :=
  ⟨source, placement.qualifiedName, (placement.listed query.rule query.recursive).map entry⟩

end Placement

namespace ContainerDecl

def firstRoot (description : ContainerDecl) : Placement :=
  (description.serviceRoots .nameSpace).headD (.top .nameSpace description)

def roots (description : ContainerDecl) : List Placement :=
  if (description.serviceRoots .nameSpace).isEmpty then [.top .nameSpace description]
  else description.serviceRoots .nameSpace

/-- All that can be asked for: the roots, and then the promoted declarations inside them, level
by level and on each level root by root. -/
def clientOrder (description : ContainerDecl) (rule : PromotionRule) : List Placement :=
  description.roots ++ (together (description.roots.map Placement.generations)).flatten.filter
    (Placement.promotedBy rule)

def placement? (description : ContainerDecl) (rule : PromotionRule) (name : String) :
    Option Placement :=
  (description.clientOrder rule).find? fun placement => placement.qualifiedName == name

/-- The report about a description: about its first root, or about the first placement with the
qualified name that is asked for. -/
def report (description : ContainerDecl) (query : ClientQuery) (source : String) :
    Except ClientReportError ClientReport :=
  match query.client with
  | none => .ok (description.firstRoot.report query source)
  | some name =>
      match description.placement? query.rule name with
      | none => .error (.noSuchClient name source)
      | some placement => .ok (placement.report query source)

/-! ### Levels -/

private theorem generationsOf_eq (path : List String) (kind : ContainerKind)
    (declarations : List ContainerDecl) :
    generationsOf path kind declarations =
      together ((declarations.map (Placement.inside path kind)).map fun placement =>
        [placement] :: placement.generations) := by
  induction declarations with
  | nil => rfl
  | cons declaration others ih =>
      rw [generationsOf, ih, List.map_cons, List.map_cons, together_cons]
      rfl

end ContainerDecl

namespace Placement

private theorem generations_eq (placement : Placement) :
    placement.generations =
      together (placement.members.map fun member => [member] :: member.generations) := by
  have split : placement.generations =
      abreast (ContainerDecl.generationsOf placement.path .nameSpace placement.declaration.namespaces)
        (ContainerDecl.generationsOf placement.path .interface
          placement.declaration.interfaces) := by
    unfold generations
    cases placement.declaration
    rw [ContainerDecl.generations]
  rw [split, ContainerDecl.generationsOf_eq, ContainerDecl.generationsOf_eq, members,
    List.map_append, together_append]

/-- A declaration that a rule rejects declares nothing. -/
private theorem members_of_rejected {rule : PromotionRule} (placement : Placement)
    (rejected : placement.promotedBy rule = false) : placement.members = [] := by
  cases rule with
  | allNested => cases rejected
  | nonEmpty =>
      simp only [promotedBy, ContainerDecl.promotedBy, Bool.or_eq_false_iff, Bool.not_eq_false',
        List.isEmpty_iff] at rejected
      obtain ⟨⟨⟨⟨-, noNamespaces⟩, noInterfaces⟩, -⟩, -⟩ := rejected
      rw [members, noNamespaces, noInterfaces]
      rfl

def promotedMembers (rule : PromotionRule) (placement : Placement) : List Placement :=
  placement.members.filter (promotedBy rule)

private theorem promotedMembers_allNested (placement : Placement) :
    placement.promotedMembers .allNested = placement.members :=
  List.filter_eq_self.mpr fun _ _ => rfl

theorem sweep_promotedMembers (rule : PromotionRule) {fuel : Nat} {queue : List Placement}
    (settled : Settled (promotedMembers .allNested) fuel queue) :
    sweep (promotedMembers rule) fuel queue =
      queue ++ (together (queue.map generations)).flatten.filter (promotedBy rule) := by
  have everything : promotedMembers .allNested = members := funext promotedMembers_allNested
  rw [everything] at settled
  exact settled.filtered_eq_levels generations_eq members_of_rejected

end Placement

end SdkClients
