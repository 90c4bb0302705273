import SdkClients.ClientTree

set_option autoImplicit false

/-!
Building the client tree of a graph.

The roots are the service containers that are not inside another service container, or the
root container if nothing is marked as a service. From the roots, clients are made level
by level: a queue holds the positions of the clients whose nested containers are still to
be looked at, and the order of the queue is the order of the clients. Every client enters
the index together with the list of clients.
-/

namespace SdkClients

namespace ContainerGraph

/-- Whether a position holds a service container. -/
def isService (graph : ContainerGraph) (id : ContainerId) : Bool :=
  ((graph.container? id).map (·.service)).getD false

/-- The service containers with no service container around them. -/
def topServices (graph : ContainerGraph) : List ContainerId :=
  (List.range graph.size).filter fun id =>
    graph.isService id && !(graph.ancestors id).any graph.isService

/-- The containers of the root clients. -/
def clientRoots (graph : ContainerGraph) : List ContainerId :=
  if graph.topServices.isEmpty then [root] else graph.topServices

/-- The nested containers that a rule promotes. -/
def promoted (graph : ContainerGraph) (rule : PromotionRule) (id : ContainerId) :
    List ContainerId :=
  match graph.container? id with
  | none => []
  | some container =>
      container.children.filter fun child =>
        ((graph.container? child).map rule.qualifies).getD false

end ContainerGraph

namespace ClientTree

/-- The clients made so far, and the position of the client of each container. -/
structure Roster where
  clients : List Client
  byContainer : List (ContainerId × ClientId)
deriving DecidableEq, Repr

namespace Roster

/-- Makes a client for a container at the first free position and enters it into the index. -/
def push (graph : ContainerGraph) (parent : Option ClientId) (roster : Roster)
    (container : ContainerId) : Option (Roster × ClientId) :=
  (graph.container? container).map fun found =>
    let id := roster.clients.length
    (⟨roster.clients ++ [⟨id, found.name, container, parent⟩],
      Keyed.put container id roster.byContainer⟩, id)

/-- Makes clients for containers, one after the other, and puts their positions at the end
of the queue. -/
def pushAll (graph : ContainerGraph) (parent : Option ClientId) (roster : Roster)
    (queue : List ClientId) : List ContainerId → Roster × List ClientId
  | [] => (roster, queue)
  | container :: others =>
      match roster.push graph parent container with
      | none => pushAll graph parent roster queue others
      | some (longer, id) => pushAll graph parent longer (queue ++ [id]) others

/-- Takes positions off the queue and makes clients for the promoted containers inside the
container of the client there. -/
def grow (graph : ContainerGraph) (rule : PromotionRule) :
    Nat → Roster → List ClientId → Roster
  | _, roster, [] => roster
  | 0, roster, _ :: _ => roster
  | fuel + 1, roster, parent :: queue =>
      match roster.clients[parent]? with
      | none => grow graph rule fuel roster queue
      | some client =>
          let (longer, later) :=
            pushAll graph (some parent) roster queue (graph.promoted rule client.container)
          grow graph rule fuel longer later

end Roster

/-- The client tree of a graph. Every container is taken off the queue at most once, so the
number of containers is fuel enough. -/
def build (graph : ContainerGraph) (rule : PromotionRule) : ClientTree :=
  let (roots, queue) := Roster.pushAll graph none ⟨[], []⟩ [] graph.clientRoots
  let grown := Roster.grow graph rule graph.size roots queue
  ⟨graph, rule, grown.clients, grown.byContainer⟩

end ClientTree

end SdkClients
