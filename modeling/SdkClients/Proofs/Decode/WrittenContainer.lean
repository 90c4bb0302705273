import SdkClients.Decode
import SdkClients.Proofs.Decode.Written
import SdkClients.Proofs.Json.Finished
import SdkClients.Proofs.Nesting

set_option autoImplicit false

/-!
The document of a container is decoded to the container.

A written container is an object with all its fields in declaration order. Reading it sets one
field after the other. Nested containers stand two brackets deeper, so the height of a document
is more than the number of levels that reading it takes.
-/

namespace SdkClients.Decode

open Json (Node Entries Surplus Value)

private theorem ContainerDecl.listToJson_eq_map (declarations : List ContainerDecl) :
    ContainerDecl.listToJson declarations = declarations.map ContainerDecl.toJson :=
  eq_map_of_cons rfl (fun _ _ => rfl) declarations

private theorem read_writtenContainer {inner : Reader ContainerDecl} {surplus : Surplus}
    (declaration : ContainerDecl)
    (namespacesRead : ∀ nested ∈ declaration.namespaces,
      inner (Node.ofValue surplus nested.toJson) = .ok nested)
    (interfacesRead : ∀ nested ∈ declaration.interfaces,
      inner (Node.ofValue surplus nested.toJson) = .ok nested) :
    (containerRecord inner).read (Node.ofValue surplus declaration.toJson) = .ok declaration := by
  obtain ⟨name, service, client, operations, namespaces, interfaces⟩ := declaration
  have operationsList : readList readString (Node.ofValue surplus
      (.array (operations.map .string))) = .ok operations :=
    readList_written fun text _ => readString_written text
  have namespacesList := readList_written namespacesRead
  have interfacesList := readList_written interfacesRead
  simp only [ContainerDecl.toJson, ContainerDecl.listToJson_eq_map]
  rw [Node.ofValue]
  simp only [Entries.ofPairs, Record.read]
  rw [Record.readEntries_field rfl rfl rfl, Record.readEntries_field rfl rfl rfl,
    Record.readEntries_field rfl rfl rfl,
    Record.readEntries_field rfl rfl (map_eq_ok_iff.mpr ⟨_, operationsList, rfl⟩),
    Record.readEntries_field rfl rfl (map_eq_ok_iff.mpr ⟨_, namespacesList, rfl⟩),
    Record.readEntries_field rfl rfl (map_eq_ok_iff.mpr ⟨_, interfacesList, rfl⟩)]
  rfl

private theorem height_nested {declaration nested : ContainerDecl}
    (member : nested ∈ declaration.namespaces ∨ nested ∈ declaration.interfaces) :
    nested.toJson.height + 2 ≤ declaration.toJson.height := by
  obtain ⟨name, service, client, operations, namespaces, interfaces⟩ := declaration
  simp only [ContainerDecl.toJson, ContainerDecl.listToJson_eq_map, Value.height,
    Value.heightOfEntries]
  rcases member with listed | listed
  · have lower : nested.toJson.height ≤ Value.heightOfItems (namespaces.map ContainerDecl.toJson) :=
      Value.height_le_of_mem_items (List.mem_map_of_mem listed)
    omega
  · have lower : nested.toJson.height ≤ Value.heightOfItems (interfaces.map ContainerDecl.toJson) :=
      Value.height_le_of_mem_items (List.mem_map_of_mem listed)
    omega

private theorem readContainerWithin_written (surplus : Surplus) (levels : Nat)
    (declaration : ContainerDecl) (enough : declaration.toJson.height < levels) :
    readContainerWithin levels (Node.ofValue surplus declaration.toJson) = .ok declaration := by
  induction levels generalizing declaration with
  | zero => exact absurd enough (Nat.not_lt_zero _)
  | succ levels ih =>
      rw [readContainerWithin]
      refine read_writtenContainer declaration (fun nested listed => ih nested ?_)
        (fun nested listed => ih nested ?_)
      · have deeper := height_nested (.inl listed)
        omega
      · have deeper := height_nested (.inr listed)
        omega

theorem fromValue_toJson (declaration : ContainerDecl) :
    fromValue readContainer declaration.toJson = .ok declaration := by
  rw [fromValue, readContainer, Node.height_ofValue]
  exact readContainerWithin_written .fewerWanted _ declaration (Nat.lt_succ_self _)

end SdkClients.Decode
