import SdkClients.Proofs.ContainerGraph.ReadBack
import SdkClients.Proofs.Description.Standing

set_option autoImplicit false

/-!
Where the declarations of a description stand, and where lowering puts them.

An address leads from the outermost declaration down to one inside it. The addresses of a
description in pre-order number its declarations, and lowering fills the positions of a graph in
this order: the container at a position is that of the declaration with the same number, and what
is read back there is that declaration with everything inside it.
-/

namespace SdkClients

mutual

/-- The declaration that a container and everything inside it were made from. -/
def Subtree.declaration : Subtree → ContainerDecl
  | ⟨name, _, operations, service, client, namespaces, interfaces⟩ =>
      ⟨name, service, client, operations, Subtree.declarations namespaces,
        Subtree.declarations interfaces⟩

def Subtree.declarations : List Subtree → List ContainerDecl
  | [] => []
  | subtree :: others => subtree.declaration :: Subtree.declarations others

end

/-- Steps inwards: the list in which the next declaration stands, and its place there. -/
abbrev Address := List (ContainerKind × Nat)

namespace ContainerDecl

def declared (declaration : ContainerDecl) : ContainerKind → List ContainerDecl
  | .nameSpace => declaration.namespaces
  | .interface => declaration.interfaces

/-- The declaration at an address. -/
def at? (declaration : ContainerDecl) : Address → Option ContainerDecl
  | [] => some declaration
  | (kind, index) :: address =>
      (declaration.declared kind)[index]?.bind fun inner => inner.at? address

mutual

/-- The addresses of a declaration and of all declarations inside it: its own, then those of
its namespaces one after the other, then those of its interfaces. -/
def addresses : ContainerDecl → List Address
  | ⟨_, _, _, _, namespaces, interfaces⟩ =>
      [] :: (addressesAmong .nameSpace 0 namespaces ++ addressesAmong .interface 0 interfaces)

/-- The addresses below the declarations of a list, the first of which has the given place. -/
def addressesAmong (kind : ContainerKind) (index : Nat) : List ContainerDecl → List Address
  | [] => []
  | declaration :: others =>
      declaration.addresses.map ((kind, index) :: ·) ++ addressesAmong kind (index + 1) others

end

private theorem addresses_eq (declaration : ContainerDecl) :
    declaration.addresses = [] :: (addressesAmong .nameSpace 0 declaration.namespaces ++
      addressesAmong .interface 0 declaration.interfaces) := by
  cases declaration
  rw [addresses]

mutual

private theorem length_addresses : ∀ declaration : ContainerDecl,
    declaration.addresses.length = declaration.count
  | ⟨_, _, _, _, namespaces, interfaces⟩ => by
      rw [addresses, count, List.length_cons, List.length_append, length_addressesAmong,
        length_addressesAmong]
      omega

private theorem length_addressesAmong (kind : ContainerKind) (index : Nat) :
    ∀ declarations : List ContainerDecl,
      (addressesAmong kind index declarations).length = countAll declarations
  | [] => rfl
  | declaration :: others => by
      rw [addressesAmong, countAll, List.length_append, List.length_map, length_addresses,
        length_addressesAmong]

end

/-! ### Every declaration has one address -/

private theorem mem_addressesAmong_iff {kind : ContainerKind} {index : Nat}
    {declarations : List ContainerDecl} {address : Address} :
    address ∈ addressesAmong kind index declarations ↔
      ∃ place inner rest, declarations[place]? = some inner ∧ rest ∈ inner.addresses ∧
        address = (kind, index + place) :: rest := by
  induction declarations generalizing index with
  | nil => simp [addressesAmong]
  | cons declaration others ih =>
      rw [addressesAmong, List.mem_append, ih, List.mem_map]
      constructor
      · intro listed
        rcases listed with ⟨rest, inside, rfl⟩ | ⟨place, inner, rest, found, inside, rfl⟩
        · exact ⟨0, declaration, rest, rfl, inside, rfl⟩
        · refine ⟨place + 1, inner, rest, found, inside, ?_⟩
          rw [Nat.add_right_comm, Nat.add_assoc]
      · intro listed
        obtain ⟨place, inner, rest, found, inside, rfl⟩ := listed
        cases place with
        | zero =>
            cases found
            exact .inl ⟨rest, inside, rfl⟩
        | succ place =>
            refine .inr ⟨place, inner, rest, found, inside, ?_⟩
            rw [Nat.add_right_comm, Nat.add_assoc]

/-- The addresses are those that lead to a declaration. -/
private theorem mem_addresses_iff {declaration : ContainerDecl} {address : Address} :
    address ∈ declaration.addresses ↔ ∃ inner, declaration.at? address = some inner := by
  induction address generalizing declaration with
  | nil => simp [addresses_eq, at?]
  | cons step address ih =>
      obtain ⟨kind, index⟩ := step
      have among : (kind, index) :: address ∈ declaration.addresses ↔
          (kind, index) :: address ∈ addressesAmong kind 0 (declaration.declared kind) := by
        rw [addresses_eq]
        cases kind <;> simp [mem_addressesAmong_iff, declared]
      rw [among, mem_addressesAmong_iff, at?]
      simp only [Option.bind_eq_some_iff]
      constructor
      · rintro ⟨place, inner, rest, found, inside, same⟩
        simp only [Nat.zero_add, List.cons.injEq, Prod.mk.injEq, true_and] at same
        obtain ⟨rfl, rfl⟩ := same
        obtain ⟨innermost, reached⟩ := ih.mp inside
        exact ⟨innermost, inner, found, reached⟩
      · rintro ⟨innermost, inner, found, reached⟩
        refine ⟨index, inner, address, found, ih.mpr ⟨innermost, reached⟩, ?_⟩
        rw [Nat.zero_add]

mutual

private theorem addresses_nodup : ∀ declaration : ContainerDecl, declaration.addresses.Nodup
  | ⟨_, _, _, _, namespaces, interfaces⟩ => by
      rw [addresses]
      apply List.nodup_cons.mpr
      constructor
      · simp [mem_addressesAmong_iff]
      · apply List.nodup_append.mpr
        refine ⟨addressesAmong_nodup .nameSpace 0 namespaces,
          addressesAmong_nodup .interface 0 interfaces, ?_⟩
        intro first left second right same
        obtain ⟨_, _, _, -, -, rfl⟩ := mem_addressesAmong_iff.mp left
        obtain ⟨_, _, _, -, -, rfl⟩ := mem_addressesAmong_iff.mp right
        cases same

private theorem addressesAmong_nodup (kind : ContainerKind) (index : Nat) :
    ∀ declarations : List ContainerDecl, (addressesAmong kind index declarations).Nodup
  | [] => List.nodup_nil
  | declaration :: others => by
      rw [addressesAmong]
      apply List.nodup_append.mpr
      refine ⟨(addresses_nodup declaration).map (List.cons_injective),
        addressesAmong_nodup kind (index + 1) others, ?_⟩
      intro first left second right same
      obtain ⟨_, -, rfl⟩ := List.mem_map.mp left
      obtain ⟨place, _, _, -, -, rfl⟩ := mem_addressesAmong_iff.mp right
      simp only [List.cons.injEq, Prod.mk.injEq, true_and] at same
      omega

end

end ContainerDecl

namespace ContainerGraph

open ContainerDecl

variable {graph : ContainerGraph}

/-! ### What is read back -/

mutual

private theorem readBack_of_layout (nested : graph.WellNested) (parent : Option ContainerId)
    (kind : ContainerKind) (id : ContainerId) : ∀ declaration : ContainerDecl,
    graph.HoldsAt id (layout parent kind id declaration) →
      ∃ subtree, graph.readBack id = some subtree ∧ subtree.declaration = declaration
  | ⟨name, service, client, operations, namespaces, interfaces⟩, held => by
      obtain ⟨first, readFirst, sameFirst⟩ := readBack_of_layoutAll nested id .nameSpace (id + 1)
        namespaces held.ownNamespaces
      obtain ⟨second, readSecond, sameSecond⟩ := readBack_of_layoutAll nested id .interface
        (id + 1 + countAll namespaces) interfaces held.ownInterfaces
      refine ⟨_, nested.readBack_eq_some_iff.mpr
        ⟨_, first, second, held.ownContainer, readFirst, readSecond, rfl⟩, ?_⟩
      rw [Subtree.declaration, sameFirst, sameSecond]
      rfl

private theorem readBack_of_layoutAll (nested : graph.WellNested) (outer : ContainerId)
    (kind : ContainerKind) (next : ContainerId) : ∀ declarations : List ContainerDecl,
    graph.HoldsAt next (layoutAll outer kind next declarations) →
      ∃ subtrees, List.Forall₂ (fun child inner => graph.readBack child = some inner)
        (positions next declarations) subtrees ∧ Subtree.declarations subtrees = declarations
  | [], _ => ⟨[], .nil, rfl⟩
  | declaration :: others, held => by
      obtain ⟨subtree, read, same⟩ := readBack_of_layout nested (some outer) kind next declaration
        held.first
      obtain ⟨subtrees, readOthers, sameOthers⟩ := readBack_of_layoutAll nested outer kind
        (next + declaration.count) others held.others
      refine ⟨subtree :: subtrees, .cons read readOthers, ?_⟩
      rw [Subtree.declarations, same, sameOthers]

end

/-! ### The container of an address -/

/-- An address inside a list leads through one of its declarations, whose own addresses stand
together in pre-order like its containers in the graph. -/
private theorem HoldsAt.through {outer next : ContainerId} {kind : ContainerKind}
    {index offset : Nat}
    {declarations : List ContainerDecl} {address : Address}
    (held : graph.HoldsAt next (layoutAll outer kind next declarations))
    (here : (addressesAmong kind index declarations)[offset]? = some address) :
    ∃ place inner rest start within, declarations[place]? = some inner ∧
      address = (kind, index + place) :: rest ∧ offset = start + within ∧
      inner.addresses[within]? = some rest ∧
      (∀ number other, inner.addresses[number]? = some other →
        (addressesAmong kind index declarations)[start + number]? =
          some ((kind, index + place) :: other)) ∧
      graph.HoldsAt (next + start) (layout (some outer) kind (next + start) inner) := by
  induction declarations generalizing next index offset with
  | nil => simp [addressesAmong] at here
  | cons declaration others ih =>
      rw [addressesAmong] at here ⊢
      have length : (declaration.addresses.map ((kind, index) :: ·)).length = declaration.count := by
        rw [List.length_map, length_addresses]
      by_cases before : offset < declaration.count
      · rw [List.getElem?_append_left (length.symm ▸ before), List.getElem?_map,
          Option.map_eq_some_iff] at here
        obtain ⟨rest, found, rfl⟩ := here
        refine ⟨0, declaration, rest, 0, offset, rfl, rfl, (Nat.zero_add _).symm, found, ?_, ?_⟩
        · intro number other listed
          have bound : number < declaration.count := by
            rw [← length_addresses]
            exact (List.getElem?_eq_some_iff.mp listed).1
          rw [Nat.zero_add, List.getElem?_append_left (length.symm ▸ bound), List.getElem?_map,
            listed]
          rfl
        · exact held.first
      · obtain ⟨later, rfl⟩ := Nat.exists_eq_add_of_le (Nat.le_of_not_lt before)
        rw [List.getElem?_append_right (by omega), length, Nat.add_sub_cancel_left] at here
        obtain ⟨place, inner, rest, start, within, found, rfl, rfl, inside, others, placed⟩ :=
          ih held.others here
        refine ⟨place + 1, inner, rest, declaration.count + start, within, found, ?_, ?_, inside,
          ?_, ?_⟩
        · rw [Nat.add_right_comm, Nat.add_assoc]
        · omega
        · intro number other listed
          rw [List.getElem?_append_right (by omega), length, Nat.add_assoc declaration.count,
            Nat.add_sub_cancel_left, others number other listed, Nat.add_right_comm, Nat.add_assoc]
        · rw [← Nat.add_assoc]
          exact placed

/-- The same for an address inside a declaration, which begins with a step into one of its
lists. -/
private theorem HoldsAt.inwards {parent : Option ContainerId} {kind inner : ContainerKind}
    {id : ContainerId} {index offset : Nat} {declaration : ContainerDecl} {rest : Address}
    (held : graph.HoldsAt id (layout parent kind id declaration))
    (here : declaration.addresses[offset]? = some ((inner, index) :: rest)) :
    ∃ nested start within, (declaration.declared inner)[index]? = some nested ∧
      offset = start + within ∧ nested.addresses[within]? = some rest ∧
      (∀ number other, nested.addresses[number]? = some other →
        declaration.addresses[start + number]? = some ((inner, index) :: other)) ∧
      graph.HoldsAt (id + start) (layout (some id) inner (id + start) nested) := by
  rw [addresses_eq] at here ⊢
  have length := length_addressesAmong .nameSpace 0 declaration.namespaces
  cases offset with
  | zero => cases here
  | succ offset =>
      rw [List.getElem?_cons_succ] at here
      by_cases before : offset < countAll declaration.namespaces
      · rw [List.getElem?_append_left (length.symm ▸ before)] at here
        obtain ⟨place, nested, _, start, within, found, same, rfl, inside, others, placed⟩ :=
          held.ownNamespaces.through here
        cases same
        refine ⟨nested, start + 1, within, ?_, by omega, inside, ?_, ?_⟩
        · rw [Nat.zero_add]
          exact found
        · intro number other listed
          have bound := (List.getElem?_eq_some_iff.mp (others number other listed)).1
          rw [Nat.add_right_comm, List.getElem?_cons_succ, List.getElem?_append_left bound,
            others number other listed]
        · rw [Nat.add_comm start, ← Nat.add_assoc]
          exact placed
      · obtain ⟨later, rfl⟩ := Nat.exists_eq_add_of_le (Nat.le_of_not_lt before)
        rw [List.getElem?_append_right (by omega), length, Nat.add_sub_cancel_left] at here
        obtain ⟨place, nested, _, start, within, found, same, rfl, inside, others, placed⟩ :=
          held.ownInterfaces.through here
        cases same
        refine ⟨nested, countAll declaration.namespaces + start + 1, within, ?_, by omega, inside,
          ?_, ?_⟩
        · rw [Nat.zero_add]
          exact found
        · intro number other listed
          rw [Nat.add_right_comm, List.getElem?_cons_succ, List.getElem?_append_right (by omega),
            length, Nat.add_assoc, Nat.add_sub_cancel_left, others number other listed]
        · have shifted : ∀ place : Nat, place + (countAll declaration.namespaces + start + 1) =
              place + 1 + countAll declaration.namespaces + start := by
            intro place
            omega
          rw [shifted]
          exact placed

/-- What encloses the declaration at an address: nothing more than what encloses the whole, or
the declaration one step further out. -/
inductive Encloses (declaration : ContainerDecl) (id : ContainerId) (parent : Option ContainerId)
    (kind : ContainerKind) : Address → Option ContainerId → ContainerKind → Prop
  | outermost : Encloses declaration id parent kind [] parent kind
  | step {outer : Address} {number : Nat} (inner : ContainerKind) (index : Nat) :
      declaration.addresses[number]? = some outer →
      Encloses declaration id parent kind (outer ++ [(inner, index)]) (some (id + number)) inner

private theorem HoldsAt.address {parent : Option ContainerId} {kind : ContainerKind}
    {id : ContainerId}
    {offset : Nat} {declaration : ContainerDecl} {address : Address}
    (held : graph.HoldsAt id (layout parent kind id declaration))
    (here : declaration.addresses[offset]? = some address) :
    ∃ inner outer own, declaration.at? address = some inner ∧
      Encloses declaration id parent kind address outer own ∧
      graph.HoldsAt (id + offset) (layout outer own (id + offset) inner) := by
  induction address generalizing parent kind id offset declaration with
  | nil =>
      have first : offset = 0 := by
        have start : declaration.addresses[0]? = some [] := by
          rw [addresses_eq]
          rfl
        apply (List.getElem?_inj (List.getElem?_eq_some_iff.mp here).1
          (addresses_nodup declaration)).mp
        rw [here, start]
      subst first
      exact ⟨declaration, parent, kind, rfl, .outermost, held⟩
  | cons step rest ih =>
      obtain ⟨inner, index⟩ := step
      obtain ⟨nested, start, within, found, rfl, inside, others, placed⟩ := held.inwards here
      obtain ⟨innermost, outer, own, reached, encloses, stands⟩ := ih placed inside
      refine ⟨innermost, outer, own, ?_, ?_, ?_⟩
      · rw [at?, found, Option.bind_some, reached]
      · cases encloses with
        | outermost =>
            have whole : declaration.addresses[0]? = some [] := by
              rw [addresses_eq]
              rfl
            have enclosed : Encloses declaration id parent kind ([] ++ [(inner, index)])
                (some (id + 0)) inner := .step inner index whole
            exact enclosed
        | step _ place listed =>
            rw [Nat.add_assoc]
            exact .step own place (others _ _ listed)
      · rw [← Nat.add_assoc]
        exact stands

end ContainerGraph

/-! ### Faithful lowering -/

namespace ContainerDecl

open ContainerGraph

/-- A graph holds a description and nothing else, in pre-order. -/
structure LaidOutIn (declaration : ContainerDecl) (graph : ContainerGraph) : Prop where
  /-- Along the lists of its containers the graph reads as the description. -/
  readBack : (graph.readBack root).map Subtree.declaration = some declaration
  /-- Every declaration of the description has one address. -/
  distinct : declaration.addresses.Nodup
  addressed : ∀ address, address ∈ declaration.addresses ↔
    ∃ inner, declaration.at? address = some inner
  /-- There is one container for each of them. -/
  size : graph.size = declaration.addresses.length
  /-- The container with the number of an address reads as the declaration there. It has the
  kind of the list in which that declaration stands, and its parent is the container with the
  number of the address one step further out. -/
  placed : ∀ position address, declaration.addresses[position]? = some address →
    ∃ inner container, declaration.at? address = some inner ∧
      graph.container? position = some container ∧
      (graph.readBack position).map Subtree.declaration = some inner ∧
      (address = [] → container.kind = .nameSpace ∧ container.parent = none) ∧
      ∀ outer kind index, address = outer ++ [(kind, index)] → container.kind = kind ∧
        ∃ around, container.parent = some around ∧ declaration.addresses[around]? = some outer

/-- Lowering loses nothing of a description and adds nothing to it. -/
theorem lower_laidOut (declaration : ContainerDecl) : declaration.LaidOutIn declaration.lower := by
  have nested : declaration.lower.WellNested := declaration.lower_reachable.wellNested
  have held : declaration.lower.HoldsAt root (layout none .nameSpace root declaration) := by
    rw [lower_eq]
    exact ⟨[], [], by simp, rfl⟩
  have read : ∀ {id parent kind inner},
      declaration.lower.HoldsAt id (layout parent kind id inner) →
      (declaration.lower.readBack id).map Subtree.declaration = some inner := by
    intro id parent kind inner stands
    obtain ⟨subtree, found, same⟩ := readBack_of_layout nested parent kind id inner stands
    rw [found, Option.map_some, same]
  refine ⟨read held, addresses_nodup declaration, fun address => mem_addresses_iff, ?_, ?_⟩
  · rw [length_addresses, lower_eq]
    exact length_layout none .nameSpace root declaration
  · intro position address numbered
    obtain ⟨inner, parent, kind, reached, encloses, stands⟩ := held.address numbered
    rw [root, Nat.zero_add] at stands
    refine ⟨inner, _, reached, stands.ownContainer, read stands, ?_, ?_⟩
    · intro whole
      cases encloses with
      | outermost => exact ⟨rfl, rfl⟩
      | step => simp at whole
    · intro outer last index same
      cases encloses with
      | outermost => simp at same
      | step _ _ listed =>
          obtain ⟨outerSame, lastSame⟩ := List.append_inj' same rfl
          cases outerSame
          cases lastSame
          refine ⟨rfl, _, rfl, ?_⟩
          rw [root, Nat.zero_add]
          exact listed

end ContainerDecl

end SdkClients
