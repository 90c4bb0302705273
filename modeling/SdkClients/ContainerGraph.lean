set_option autoImplicit false

/-!
The graph of containers: namespaces and interfaces with links in both directions.

A container is identified by its position. The graph starts with its root, and every other
container is added under one that is already there, so links down lead to later positions
and links up to earlier ones. Containers are never removed.

`Step` lists the changes that a caller can ask for, and `ContainerGraph.apply` carries one
out unless it names a container that is not in the graph.
-/

namespace SdkClients

/-- The position of a container in its graph. -/
abbrev ContainerId := Nat

/-- What a container is. -/
inductive ContainerKind where
  | nameSpace
  | interface
deriving DecidableEq, Repr

/-- The word for a kind in reports. -/
def ContainerKind.word : ContainerKind → String
  | .nameSpace => "namespace"
  | .interface => "interface"

/-- A namespace or interface. Nested containers are listed by kind in declaration order. -/
structure Container where
  name : String
  kind : ContainerKind
  operations : List String
  namespaces : List ContainerId
  interfaces : List ContainerId
  parent : Option ContainerId
  service : Bool
  client : Bool
deriving DecidableEq, Repr

namespace Container

/-- A container without content or marks. -/
def bare (name : String) (kind : ContainerKind) (parent : Option ContainerId) : Container :=
  ⟨name, kind, [], [], [], parent, false, false⟩

/-- The nested containers: namespaces first, then interfaces. -/
def children (container : Container) : List ContainerId :=
  container.namespaces ++ container.interfaces

/-- Neither operations nor nested containers. -/
def isEmpty (container : Container) : Bool :=
  container.operations.isEmpty && container.namespaces.isEmpty && container.interfaces.isEmpty

/-- Appends a nested container to the list of its kind. -/
def withChild (container : Container) (kind : ContainerKind) (child : ContainerId) : Container :=
  match kind with
  | .nameSpace => { container with namespaces := container.namespaces ++ [child] }
  | .interface => { container with interfaces := container.interfaces ++ [child] }

/-- Appends an operation. -/
def withOperation (container : Container) (operation : String) : Container :=
  { container with operations := container.operations ++ [operation] }

def markedService (container : Container) : Container := { container with service := true }

def markedClient (container : Container) : Container := { container with client := true }

end Container

/-- Containers by position; the first one is the root. -/
structure ContainerGraph where
  containers : List Container
deriving DecidableEq, Repr

namespace ContainerGraph

/-- A graph with only its root. -/
def ofRoot (name : String) : ContainerGraph := ⟨[.bare name .nameSpace none]⟩

/-- The position of the root. -/
def root : ContainerId := 0

def size (graph : ContainerGraph) : Nat := graph.containers.length

/-- The container at a position. -/
def container? (graph : ContainerGraph) (id : ContainerId) : Option Container :=
  graph.containers[id]?

/-- Changes the container at a position, if there is one. -/
def update (graph : ContainerGraph) (id : ContainerId) (change : Container → Container) :
    ContainerGraph :=
  ⟨graph.containers.modify id change⟩

/-- Adds a container of the given kind; its position is the size of the graph before. -/
def addChild (graph : ContainerGraph) (kind : ContainerKind) (parent : ContainerId)
    (name : String) : ContainerGraph :=
  ⟨(graph.update parent fun container => container.withChild kind graph.size).containers ++
    [.bare name kind (some parent)]⟩

def addOperation (graph : ContainerGraph) (id : ContainerId) (operation : String) :
    ContainerGraph :=
  graph.update id fun container => container.withOperation operation

def markService (graph : ContainerGraph) (id : ContainerId) : ContainerGraph :=
  graph.update id Container.markedService

def markClient (graph : ContainerGraph) (id : ContainerId) : ContainerGraph :=
  graph.update id Container.markedClient

/-! ### Changes by callers -/

/-- A change to a graph. -/
inductive Step where
  | addNamespace (parent : ContainerId) (name : String)
  | addInterface (parent : ContainerId) (name : String)
  | addOperation (container : ContainerId) (name : String)
  | markService (container : ContainerId)
  | markClient (container : ContainerId)
deriving DecidableEq, Repr

/-- The container that a change names. -/
def Step.target : Step → ContainerId
  | .addNamespace parent _ => parent
  | .addInterface parent _ => parent
  | .addOperation container _ => container
  | .markService container => container
  | .markClient container => container

/-- A change named a container that a graph of the given size does not have. -/
structure UnknownContainer where
  id : ContainerId
  size : Nat
deriving DecidableEq, Repr

/-- How a container is named in messages. -/
def describeId (id : ContainerId) : String := "ContainerId(" ++ toString id ++ ")"

def UnknownContainer.message (unknown : UnknownContainer) : String :=
  "container " ++ describeId unknown.id ++ " is not part of this graph (" ++
    toString unknown.size ++ " containers)"

/-- Carries out a change whose target exists. -/
def perform (graph : ContainerGraph) : Step → ContainerGraph
  | .addNamespace parent name => graph.addChild .nameSpace parent name
  | .addInterface parent name => graph.addChild .interface parent name
  | .addOperation container name => graph.addOperation container name
  | .markService container => graph.markService container
  | .markClient container => graph.markClient container

/-- Carries out a change, or refuses it when its target is not in the graph. -/
def apply (graph : ContainerGraph) (step : Step) : Except UnknownContainer ContainerGraph :=
  if step.target < graph.size then .ok (graph.perform step)
  else .error ⟨step.target, graph.size⟩

/-! ### Links up -/

/-- The parent of a container. -/
def parentOf? (graph : ContainerGraph) (id : ContainerId) : Option ContainerId :=
  (graph.container? id).bind (·.parent)

/-- Follows links up for at most the given number of steps. -/
def ancestorsWithin (graph : ContainerGraph) : Nat → ContainerId → List ContainerId
  | 0, _ => []
  | steps + 1, id =>
      match graph.parentOf? id with
      | none => []
      | some parent => parent :: graph.ancestorsWithin steps parent

/-- The containers around a container, nearest first. Each link up leads to an earlier
position, so there are fewer of them than containers. -/
def ancestors (graph : ContainerGraph) (id : ContainerId) : List ContainerId :=
  graph.ancestorsWithin graph.size id

end ContainerGraph

end SdkClients
