import SdkClients.ContainerGraph
import SdkClients.Description

set_option autoImplicit false

/-!
Laying nested declarations out as a graph.

A declaration becomes the container at hand, and the declarations inside it are added
below it one after the other: each one with everything inside it before the next, and
namespaces before interfaces. The positions therefore follow the declarations in the
order in which they are written down from the outside in.
-/

namespace SdkClients.ContainerDecl

/-- Gives a container the marks and operations of its declaration. -/
def lowerOwn (graph : ContainerGraph) (id : ContainerId) (service client : Bool)
    (operations : List String) : ContainerGraph :=
  let graph := if service then graph.markService id else graph
  let graph := if client then graph.markClient id else graph
  operations.foldl (fun graph operation => graph.addOperation id operation) graph

mutual

/-- Gives the container at a position the content of a declaration. -/
def lowerInto (graph : ContainerGraph) (id : ContainerId) : ContainerDecl → ContainerGraph
  | ⟨_, service, client, operations, namespaces, interfaces⟩ =>
      let graph := lowerOwn graph id service client operations
      let graph := lowerList graph id .nameSpace namespaces
      lowerList graph id .interface interfaces

/-- Adds declarations of one kind below a container. -/
def lowerList (graph : ContainerGraph) (id : ContainerId) (kind : ContainerKind) :
    List ContainerDecl → ContainerGraph
  | [] => graph
  | declaration :: others =>
      let added := graph.addChild kind id declaration.name
      lowerList (lowerInto added graph.size declaration) id kind others

end

/-- The graph of a declaration, which becomes its root. -/
def lower (declaration : ContainerDecl) : ContainerGraph :=
  lowerInto (.ofRoot declaration.name) ContainerGraph.root declaration

end SdkClients.ContainerDecl
