set_option autoImplicit false

/-!
Declarations of containers, as a service description nests them.

A container is a namespace or an interface; the list in which a nested container is
declared decides which. The outermost container is always a namespace.
-/

namespace SdkClients

/-- A declared namespace or interface with everything declared inside it. -/
structure ContainerDecl where
  name : String
  service : Bool
  client : Bool
  operations : List String
  namespaces : List ContainerDecl
  interfaces : List ContainerDecl
deriving Repr, Inhabited

end SdkClients
