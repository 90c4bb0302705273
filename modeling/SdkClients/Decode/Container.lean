import SdkClients.Decode.Shape
import SdkClients.Description

set_option autoImplicit false

/-!
Reading container declarations.

Only the name is required. A declaration nests declarations in two of its fields; the
height of the node bounds how often that can happen.
-/

namespace SdkClients.Decode

/-- A container declaration whose fields may still be missing. -/
structure ContainerDraft where
  name : Option String
  service : Option Bool
  client : Option Bool
  operations : Option (List String)
  namespaces : Option (List ContainerDecl)
  interfaces : Option (List ContainerDecl)

namespace ContainerDraft

def empty : ContainerDraft := ⟨none, none, none, none, none, none⟩

/-- Missing flags are off and missing lists are empty. -/
def complete (draft : ContainerDraft) : Except Cause ContainerDecl :=
  match draft.name with
  | none => .error (.missingField "name")
  | some name =>
      .ok ⟨name, draft.service.getD false, draft.client.getD false, draft.operations.getD [],
        draft.namespaces.getD [], draft.interfaces.getD []⟩

end ContainerDraft

/-- The record of a declaration; `inner` reads nested declarations. -/
def containerRecord (inner : Reader ContainerDecl) : Record ContainerDraft ContainerDecl where
  title := "struct ContainerDecl"
  empty := .empty
  complete := ContainerDraft.complete
  fields := [
    ⟨"name", true, fun draft => draft.name.isSome,
      fun draft node => (readString node).map fun name => { draft with name := some name }⟩,
    ⟨"service", false, fun draft => draft.service.isSome,
      fun draft node => (readBool node).map fun service => { draft with service := some service }⟩,
    ⟨"client", false, fun draft => draft.client.isSome,
      fun draft node => (readBool node).map fun client => { draft with client := some client }⟩,
    ⟨"operations", false, fun draft => draft.operations.isSome,
      fun draft node => (readList readString node).map fun operations =>
        { draft with operations := some operations }⟩,
    ⟨"namespaces", false, fun draft => draft.namespaces.isSome,
      fun draft node => (readList inner node).map fun namespaces =>
        { draft with namespaces := some namespaces }⟩,
    ⟨"interfaces", false, fun draft => draft.interfaces.isSome,
      fun draft node => (readList inner node).map fun interfaces =>
        { draft with interfaces := some interfaces }⟩]

/-- A declaration with at most the given number of levels. -/
def readContainerWithin : Nat → Reader ContainerDecl
  | 0, node => .error (mismatch (.record "struct ContainerDecl") node)
  | levels + 1, node => (containerRecord (readContainerWithin levels)).read node

def readContainer : Reader ContainerDecl := fun node => readContainerWithin (node.height + 1) node

end SdkClients.Decode
