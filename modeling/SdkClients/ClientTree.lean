import SdkClients.ContainerGraph
import SdkClients.Keyed

set_option autoImplicit false

/-!
Client trees: which containers become client objects, and how these nest.

A client stands for one container and is identified by its position in the tree. A rule
decides which nested containers are promoted to clients. Besides its clients a tree keeps
an index of them by their containers. The look-ups of this module work on every tree,
whether it was built from its graph or adopted from elsewhere; parent links of an adopted
tree may form cycles.
-/

namespace SdkClients

/-- The position of a client in its tree. -/
abbrev ClientId := Nat

/-- How a client is named in messages. -/
def describeClientId (id : ClientId) : String := "ClientId(" ++ toString id ++ ")"

/-- A container that became a client; a client without a parent is a root. -/
structure Client where
  id : ClientId
  name : String
  container : ContainerId
  parent : Option ClientId
deriving DecidableEq, Repr

/-- Decides which nested containers become clients. -/
inductive PromotionRule where
  /-- Every nested container. -/
  | allNested
  /-- Containers with content or a mark. -/
  | nonEmpty
deriving DecidableEq, Repr

/-- Whether a rule promotes a container. -/
def PromotionRule.qualifies : PromotionRule → Container → Bool
  | .allNested, _ => true
  | .nonEmpty, container => !container.isEmpty || container.service || container.client

/-- The clients of a graph under a rule, and the position of the client of each container. -/
structure ClientTree where
  graph : ContainerGraph
  rule : PromotionRule
  clients : List Client
  byContainer : List (ContainerId × ClientId)
deriving DecidableEq, Repr

namespace ClientTree

def size (tree : ClientTree) : Nat := tree.clients.length

/-- The clients without a parent. -/
def roots (tree : ClientTree) : List Client :=
  tree.clients.filter fun client => client.parent.isNone

/-- The client at a position. -/
def client? (tree : ClientTree) (id : ClientId) : Option Client := tree.clients[id]?

/-- The client that the index has for a container. -/
def clientFor? (tree : ClientTree) (container : ContainerId) : Option Client :=
  (Keyed.get? tree.byContainer container).bind tree.client?

/-- The parent of a client. -/
def parent? (tree : ClientTree) (id : ClientId) : Option Client :=
  (tree.client? id).bind fun client => client.parent.bind tree.client?

/-- The names from a client up to its root, nearest first; nothing when that takes more
clients than allowed. -/
def namesUpward (tree : ClientTree) : Nat → Option Client → Option (List String)
  | _, none => some []
  | 0, some _ => none
  | allowed + 1, some client =>
      (tree.namesUpward allowed (client.parent.bind tree.client?)).map (client.name :: ·)

/-- The names from the root down, joined by dots. On a cycle of parent links there is no
such name, and a chain longer than the tree must be on one. A position outside the tree
has the empty chain of names. -/
def qualifiedName? (tree : ClientTree) (id : ClientId) : Option String :=
  (tree.namesUpward tree.size (tree.client? id)).map fun names =>
    String.intercalate "." names.reverse

/-- The first client with a qualified name. -/
def find? (tree : ClientTree) (qualifiedName : String) : Option Client :=
  tree.clients.find? fun client => tree.qualifiedName? client.id == some qualifiedName

end ClientTree

end SdkClients
