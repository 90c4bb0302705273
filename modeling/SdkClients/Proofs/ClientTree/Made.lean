import SdkClients.Proofs.ClientTree.Adoption
import SdkClients.Proofs.ClientTree.BuiltTree

set_option autoImplicit false

/-!
The trees that callers can have: built from a graph that calls have made, or adopted over one.
Look-ups are exact in all of them, and the links of their graphs are consistent; what the parent
links of an adopted tree say is up to its maker.
-/

namespace SdkClients.ClientTree

inductive Made : ClientTree → Prop
  | built {graph : ContainerGraph} (rule : PromotionRule) :
      graph.Reachable → Made (build graph rule)
  | adopted {graph : ContainerGraph} {rule : PromotionRule} {clients : List Client}
      {tree : ClientTree} : graph.Reachable → adopt graph rule clients = .ok tree → Made tree

variable {tree : ClientTree}

theorem Made.indexed (made : tree.Made) : tree.Indexed := by
  cases made with
  | built rule reachable => exact build_indexed reachable.wellNested
  | adopted reachable accepted => exact (adopt_eq_ok_iff.mp accepted).2

theorem Made.wellNested (made : tree.Made) : tree.graph.WellNested := by
  cases made with
  | built rule reachable => exact reachable.wellNested
  | adopted reachable accepted =>
      rw [(adopt_eq_ok_iff.mp accepted).1]
      exact reachable.wellNested

end SdkClients.ClientTree
