import SdkClients.Proofs.ClientTree.Lineage

set_option autoImplicit false

/-!
Finding clients by their names.

Names without dots can be told from their join again, even if some of them are empty. A line of
clients is then known from its name, provided that no two clients with the same parent link share a
name: from the root down, each name leads on to one client only. So a qualified name leads back to
the client that has it, whatever other clients stand on circles.
-/

namespace SdkClients.ClientTree

private theorem names_eq_of_intercalate_eq {names others : List String} (filled : names ≠ [])
    (filledOther : others ≠ []) (undotted : ∀ name ∈ names, '.' ∉ name.toList)
    (undottedOther : ∀ name ∈ others, '.' ∉ name.toList)
    (same : String.intercalate "." names = String.intercalate "." others) : names = others := by
  have pieces : ∀ names : List String, names ≠ [] → (∀ name ∈ names, '.' ∉ name.toList) →
      (String.intercalate "." names).toList.splitOn '.' = names.map String.toList := by
    intro names filled undotted
    rw [String.toList_intercalate]
    exact List.splitOn_intercalate '.' (List.forall_mem_map.mpr undotted)
      (mt List.map_eq_nil_iff.mp filled)
  have mapped : names.map String.toList = others.map String.toList := by
    rw [← pieces names filled undotted, same, pieces others filledOther undottedOther]
  exact List.map_injective_iff.mpr (fun _ _ => String.toList_inj.mp) mapped

variable {tree : ClientTree}

/-- No name has a dot in it, and clients with the same parent link, or without one, have different
names. -/
structure NamedApart (tree : ClientTree) : Prop where
  undotted : ∀ client ∈ tree.clients, '.' ∉ client.name.toList
  siblings : ∀ first ∈ tree.clients, ∀ second ∈ tree.clients, first.parent = second.parent →
    first.name = second.name → first = second

private theorem Line.ne_nil {client : Client} {line : List Client} (own : tree.Line client line) :
    line ≠ [] := by
  cases own with
  | root => exact List.cons_ne_nil _ _
  | child => exact List.append_ne_nil_of_right_ne_nil _ (List.cons_ne_nil _ _)

/-- Whoever has a parent has more than one name on his line. -/
private theorem Line.names_ne_singleton {parent client : Client} {upper : List Client}
    (above : tree.Line parent upper) (name : String) :
    (upper ++ [client]).map Client.name ≠ [name] := by
  intro same
  have length := congrArg List.length same
  rw [List.length_map, List.length_append, List.length_singleton, List.length_singleton] at length
  exact above.ne_nil (List.length_eq_zero_iff.mp (Nat.succ.inj length))

private theorem NamedApart.eq_of_names (apart : tree.NamedApart) (indexed : tree.Indexed)
    {client other : Client} {line another : List Client} (own : tree.Line client line)
    (again : tree.Line other another) (same : line.map Client.name = another.map Client.name) :
    client = other := by
  -- down the first line: the clients so far agree, so the next two have the same parent
  induction own generalizing other another with
  | @root client listed top =>
      cases again with
      | root listedOther topOther =>
          exact apart.siblings _ listed _ listedOther (top.trans topOther.symm)
            (List.singleton_inj.mp same)
      | child _ _ above => exact absurd same.symm (above.names_ne_singleton client.name)
  | @child client parent upper listed link above ih =>
      cases again with
      | root => exact absurd same (above.names_ne_singleton _)
      | @child _ second _ listedOther linkOther aboveOther =>
          rw [List.map_append, List.map_append] at same
          obtain ⟨higher, last⟩ := List.append_inj' same rfl
          obtain rfl : parent = second := ih aboveOther higher
          have linked := ((indexed.linksTo_iff listed).mp link).2
          have linkedOther := ((indexed.linksTo_iff listedOther).mp linkOther).2
          exact apart.siblings _ listed _ listedOther (linked.trans linkedOther.symm)
            (List.singleton_inj.mp last)

private theorem NamedApart.eq_of_qualifiedName? (apart : tree.NamedApart) (indexed : tree.Indexed)
    {first second : Client} (left : first ∈ tree.clients) (right : second ∈ tree.clients)
    {name : String} (named : tree.qualifiedName? first.id = some name)
    (again : tree.qualifiedName? second.id = some name) : first = second := by
  obtain ⟨line, own⟩ := exists_line_of_qualifiedName? indexed left named
  obtain ⟨another, ownOther⟩ := exists_line_of_qualifiedName? indexed right again
  rw [qualifiedName?_of_line indexed own left, Option.some.injEq] at named
  rw [qualifiedName?_of_line indexed ownOther right, Option.some.injEq] at again
  have undotted : ∀ {client : Client} {line : List Client}, tree.Line client line →
      ∀ name ∈ line.map Client.name, '.' ∉ name.toList := fun own =>
    List.forall_mem_map.mpr fun member inside => apart.undotted member (own.mem_clients member inside)
  refine apart.eq_of_names indexed own ownOther ?_
  exact names_eq_of_intercalate_eq (mt List.map_eq_nil_iff.mp own.ne_nil)
    (mt List.map_eq_nil_iff.mp ownOther.ne_nil) (undotted own) (undotted ownOther)
    (named.trans again.symm)

/-- Finding by name undoes naming. -/
structure FindsNamed (tree : ClientTree) : Prop where
  found : ∀ client ∈ tree.clients, ∀ name, tree.qualifiedName? client.id = some name →
    tree.find? name = some client
  missing : ∀ name, tree.find? name = none ↔
    ∀ client ∈ tree.clients, tree.qualifiedName? client.id ≠ some name

private theorem find?_eq_none_iff {name : String} : tree.find? name = none ↔
    ∀ client ∈ tree.clients, tree.qualifiedName? client.id ≠ some name := by
  simp only [find?, List.find?_eq_none, beq_iff_eq, ne_eq]

/-- In every tree that callers can have, parent links in circles included, a client is found by
the name that it has, if names have no dots and siblings have different ones. -/
theorem find?_undoes_qualifiedName? (made : tree.Made) (apart : tree.NamedApart) :
    tree.FindsNamed where
  found := by
    intro client member name named
    cases found : tree.find? name with
    | none => exact absurd named (find?_eq_none_iff.mp found client member)
    | some other =>
        have listed : other ∈ tree.clients := List.mem_of_find?_eq_some found
        have again : tree.qualifiedName? other.id = some name := by
          simpa using List.find?_some found
        rw [apart.eq_of_qualifiedName? made.indexed listed member again named]
  missing := fun _ => find?_eq_none_iff

/-- Clients with empty names on one line, next to a root of another name and to two clients that are
each other's parent. -/
def emptyNamesTree : ClientTree where
  graph := ContainerGraph.twoServices
  rule := .allNested
  clients := [⟨0, "", 1, none⟩, ⟨1, "", 4, some 0⟩, ⟨2, "B", 0, some 3⟩, ⟨3, "B", 2, some 2⟩,
    ⟨4, "", 3, some 1⟩, ⟨5, "B", 5, none⟩]
  byContainer := [(1, 0), (4, 1), (0, 2), (2, 3), (3, 4), (5, 5)]

theorem find?_undoes_qualifiedName?_emptyNamesTree :
    emptyNamesTree.Made ∧ emptyNamesTree.NamedApart ∧ emptyNamesTree.FindsNamed ∧
      emptyNamesTree.find? ".." = some ⟨4, "", 3, some 1⟩ ∧
      emptyNamesTree.qualifiedName? 3 = none ∧ emptyNamesTree.find? "B.B" = none := by
  have accepted : adopt ContainerGraph.twoServices .allNested emptyNamesTree.clients =
      .ok emptyNamesTree := by decide
  have made : emptyNamesTree.Made := .adopted ContainerGraph.reachable_twoServices accepted
  have apart : emptyNamesTree.NamedApart := ⟨by decide, by decide⟩
  exact ⟨made, apart, find?_undoes_qualifiedName? made apart, by decide, by decide, by decide⟩

end SdkClients.ClientTree
