import SdkClients.ClientTree

set_option autoImplicit false

/-!
Adopting clients that were made elsewhere.

Clients are checked one after the other, and the first one at fault decides the answer. A
client must carry its position as id, its container must be in the graph, its parent must
be another position of the list, and no earlier client may stand for its container. The
clients that pass enter the index of the tree, which tells the earlier client of a
container; that the index leads nowhere else is shown before it is used.
-/

namespace SdkClients

/-- Why a list of clients is refused. -/
inductive AdoptionError where
  | idMismatch (position : Nat) (found : ClientId)
  | unknownContainer (client : String) (container : ContainerId)
  | danglingParent (client : String) (parent : ClientId)
  | duplicateClient (container : ContainerId) (first second : String)
deriving DecidableEq, Repr

def AdoptionError.message : AdoptionError → String
  | .idMismatch position found =>
      "client at position " ++ toString position ++ " carries id " ++ describeClientId found
  | .unknownContainer client container =>
      "client `" ++ client ++ "` refers to container " ++ ContainerGraph.describeId container ++
        " which is not in the graph"
  | .danglingParent client parent =>
      "client `" ++ client ++ "` has parent " ++ describeClientId parent ++
        " which is not a client in this tree"
  | .duplicateClient container first second =>
      "container " ++ ContainerGraph.describeId container ++ " has more than one client (`" ++
        first ++ "` and `" ++ second ++ "`)"

namespace ClientTree

/-- Why the pass over the clients stops. -/
inductive Halt where
  | refused (reason : AdoptionError)
  /-- The index names a position that the list does not have. -/
  | outOfRange (id : ClientId)
deriving DecidableEq, Repr

/-- Checks the client at a position and enters it into the index. What the index has for its
container already is the position of another client. -/
def enter (graph : ContainerGraph) (clients : List Client) (index : List (ContainerId × ClientId))
    (position : Nat) (client : Client) : Except Halt (List (ContainerId × ClientId)) :=
  if client.id ≠ position then .error (.refused (.idMismatch position client.id))
  else if (graph.container? client.container).isNone then
    .error (.refused (.unknownContainer client.name client.container))
  else
    match client.parent.filter fun parent => clients.length ≤ parent ∨ parent = client.id with
    | some parent => .error (.refused (.danglingParent client.name parent))
    | none =>
        match Keyed.get? index client.container with
        | none => .ok (Keyed.put client.container client.id index)
        | some previous =>
            match clients[previous]? with
            | some first =>
                .error (.refused (.duplicateClient client.container first.name client.name))
            | none => .error (.outOfRange previous)

/-- Checks and enters the clients from a position on. -/
def enterFrom (graph : ContainerGraph) (clients : List Client)
    (index : List (ContainerId × ClientId)) (position : Nat) :
    List Client → Except Halt (List (ContainerId × ClientId))
  | [] => .ok index
  | client :: others => do
      let next ← enter graph clients index position client
      enterFrom graph clients next (position + 1) others

/-- All positions in an index are below a bound. -/
def Leads (index : List (ContainerId × ClientId)) (total : Nat) : Prop :=
  ∀ container id, Keyed.get? index container = some id → id < total

theorem enter_ne_outOfRange {graph : ContainerGraph} {clients : List Client}
    {index : List (ContainerId × ClientId)} (leads : Leads index clients.length) (position : Nat)
    (client : Client) (id : ClientId) :
    enter graph clients index position client ≠ .error (.outOfRange id) := by
  unfold enter
  intro halted
  split at halted
  · cases halted
  · split at halted
    · cases halted
    · split at halted
      · cases halted
      · split at halted
        · cases halted
        · next previous entered =>
            have inside : previous < clients.length := leads _ _ entered
            rw [List.getElem?_eq_getElem inside] at halted
            cases halted

theorem Leads.enter {graph : ContainerGraph} {clients : List Client}
    {index next : List (ContainerId × ClientId)} {position : Nat} {client : Client}
    (leads : Leads index clients.length) (inside : position < clients.length)
    (entered : enter graph clients index position client = .ok next) :
    Leads next clients.length := by
  unfold ClientTree.enter at entered
  split at entered
  · cases entered
  · next positional =>
      split at entered
      · cases entered
      · split at entered
        · cases entered
        · split at entered
          · cases entered
            intro container id found
            rw [Keyed.get?_put] at found
            split at found
            · cases found
              exact Decidable.of_not_not positional ▸ inside
            · exact leads container id found
          · split at entered <;> cases entered

theorem enterFrom_ne_outOfRange {graph : ContainerGraph} {clients rest : List Client}
    {index : List (ContainerId × ClientId)} {position : Nat} (leads : Leads index clients.length)
    (inside : position + rest.length ≤ clients.length) (id : ClientId) :
    enterFrom graph clients index position rest ≠ .error (.outOfRange id) := by
  induction rest generalizing index position with
  | nil =>
      intro halted
      cases halted
  | cons client rest ih =>
      rw [List.length_cons] at inside
      rw [enterFrom]
      cases entered : enter graph clients index position client with
      | error halt =>
          intro halted
          cases halted
          exact enter_ne_outOfRange leads position client id entered
      | ok next => exact ih (leads.enter (by omega) entered) (by omega)

/-- The tree with the given clients, or the first reason against them. -/
def adopt (graph : ContainerGraph) (rule : PromotionRule) (clients : List Client) :
    Except AdoptionError ClientTree :=
  match passed : enterFrom graph clients [] 0 clients with
  | .ok index => .ok ⟨graph, rule, clients, index⟩
  | .error (.refused reason) => .error reason
  | .error (.outOfRange id) =>
      absurd passed
        (enterFrom_ne_outOfRange (fun _ _ found => by cases found) (Nat.zero_add _ ▸ Nat.le_refl _) id)

end ClientTree

end SdkClients
