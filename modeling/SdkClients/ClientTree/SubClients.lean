import SdkClients.ClientTree

set_option autoImplicit false

/-!
Listing the sub-clients of a client.

The direct sub-clients stand for the nested containers: namespaces first, then interfaces,
each in declaration order. A nested container without a client is passed over if the rule
does not promote it and is an error otherwise, and so is a client whose parent link does
not lead back. The recursive listing takes clients from a queue and so goes level by
level.
-/

namespace SdkClients

/-- Why sub-clients cannot be listed. -/
inductive ListingError where
  | unknownClient (client : ClientId)
  | unknownContainer (container : ContainerId)
  | missingClient (container : String)
  | parentMismatch (client expected : String)
deriving DecidableEq, Repr

def ListingError.message : ListingError → String
  | .unknownClient client =>
      "client " ++ describeClientId client ++ " is not part of this client tree"
  | .unknownContainer container =>
      "container " ++ ContainerGraph.describeId container ++ " is not part of the semantic graph"
  | .missingClient container =>
      "nested container `" ++ container ++ "` qualifies as a client but none was built for it"
  | .parentMismatch client expected =>
      "client `" ++ client ++ "` was found under `" ++ expected ++
        "` but its parent link points elsewhere"

namespace ClientTree

/-- The client of a nested container, if it has one. -/
def subClient (tree : ClientTree) (client : Client) (child : ContainerId) :
    Except ListingError (Option Client) :=
  match tree.graph.container? child with
  | none => .error (.unknownContainer child)
  | some container =>
      match tree.clientFor? child with
      | some sub =>
          if sub.parent = some client.id then .ok (some sub)
          else .error (.parentMismatch sub.name client.name)
      | none =>
          if tree.rule.qualifies container then .error (.missingClient container.name)
          else .ok none

/-- The clients of nested containers in order, up to the first error. -/
def subClientsOf (tree : ClientTree) (client : Client) :
    List ContainerId → Except ListingError (List Client)
  | [] => .ok []
  | child :: others => do
      let sub ← tree.subClient client child
      let later ← tree.subClientsOf client others
      return sub.toList ++ later

/-- The direct sub-clients. -/
def directSubClients (tree : ClientTree) (client : Client) : Except ListingError (List Client) :=
  match tree.graph.container? client.container with
  | none => .error (.unknownContainer client.container)
  | some container => tree.subClientsOf client container.children

/-- Takes clients off a queue, lists their direct sub-clients and puts these at its end. -/
def listFrom (tree : ClientTree) : Nat → List Client → Except ListingError (List Client)
  | _, [] => .ok []
  | 0, _ :: _ => .ok []
  | fuel + 1, client :: queue => do
      let level ← tree.directSubClients client
      let later ← tree.listFrom fuel (queue ++ level)
      return level ++ later

/-- The sub-clients of a client: the direct ones, or all of them level by level. Nested
containers lie strictly deeper, so each client is taken off the queue at most once and the
number of clients is fuel enough. -/
def subClients (tree : ClientTree) (id : ClientId) (recursive : Bool) :
    Except ListingError (List Client) :=
  match tree.client? id with
  | none => .error (.unknownClient id)
  | some client =>
      if recursive then tree.listFrom tree.size [client] else tree.directSubClients client

end ClientTree

end SdkClients
