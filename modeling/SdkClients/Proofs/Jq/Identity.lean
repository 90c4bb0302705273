import SdkClients.CommandLine.Run
import SdkClients.Jq.Run
import SdkClients.Proofs.Fallible
import SdkClients.Proofs.Json.Loaded

set_option autoImplicit false

/-!
The filter that gives its input.

Its output is written and read back, so only what is read back is left. Of a document that was read,
everything but its reals comes back: a real is printed with its shortest digits, and reading these
may give one of its neighbours. Where no real changes, a command does the same with the filter as
without it. Of the engine only this one filter is known, and that it puts out its input.
-/

namespace SdkClients

/-- The filter `.` puts out its input as a text, and nothing else. -/
def FilterEngine.Echoes (engine : FilterEngine) : Prop :=
  ∃ filter, engine.compile "." = .ok filter ∧
    ∀ value : Json.Value, filter value = [.text value.render]

/-! ### Running the filter -/

namespace Jq

private theorem Value.ofJsonList_eq_map (items : List Json.Value) :
    ofJsonList items = items.map ofJson :=
  eq_map_of_cons rfl (fun _ _ => rfl) items

private theorem Value.ofJsonEntries_eq_map (entries : List (String × Json.Value)) :
    ofJsonEntries entries = entries.map fun entry => (entry.1, ofJson entry.2) :=
  eq_map_of_cons rfl (fun _ _ => rfl) entries

private theorem Value.renderList_eq_map (items : List Value) :
    renderList items = items.map render :=
  eq_map_of_cons rfl (fun _ _ => rfl) items

private theorem Value.renderEntries_eq_map (entries : List (String × Value)) :
    renderEntries entries =
      entries.map fun entry => Json.renderString entry.1 ++ ":" ++ entry.2.render :=
  eq_map_of_cons rfl (fun _ _ => rfl) entries

end Jq

namespace FilterEngine

variable [engine : FilterEngine]

/-- A loaded document comes back with every real read again, or not at all. -/
private theorem run_identity (echoes : engine.Echoes) {value : Json.Value} (loaded : value.Loaded) :
    match value.reread with
    | some again => run "." value = .ok [again]
    | none => ∃ fault, run "." value = .error (.notJson value.render fault) := by
  obtain ⟨filter, compiled, output⟩ := echoes
  unfold run
  rw [compiled, ← loaded.parse_render]
  dsimp only
  rw [output, readBack]
  cases parsed : Json.Value.parse value.render with
  | error fault => exact ⟨fault, rfl⟩
  | ok again => rfl

private theorem run_identity_iff (echoes : engine.Echoes) {value : Json.Value}
    (loaded : value.Loaded) :
    run "." value = .ok [value] ↔ value.RealsKept := by
  have comes := run_identity echoes loaded
  rw [← Json.Value.reread_eq_self_iff]
  cases back : value.reread with
  | some again =>
      rw [back] at comes
      simp [comes]
  | none =>
      rw [back] at comes
      obtain ⟨fault, failed⟩ := comes
      simp [failed]

end FilterEngine

/-! ### Parts of documents -/

namespace Json

private theorem Value.Loaded.step {value part : Value} (loaded : value.Loaded) {step : String}
    (selected : Pointer.step? step value = some part) : part.Loaded := by
  unfold Pointer.step? at selected
  split at selected
  · obtain ⟨entry, found, rfl⟩ := Option.map_eq_some_iff.mp selected
    exact loaded.entry (List.mem_of_find?_eq_some found)
  · obtain ⟨index, -, found⟩ := Option.bind_eq_some_iff.mp selected
    exact loaded.item (List.mem_of_getElem? found)
  · cases selected

private theorem Value.Loaded.select {value part : Value} (loaded : value.Loaded) {pointer : String}
    (selected : Pointer.select? pointer value = some part) : part.Loaded := by
  unfold Pointer.select? at selected
  cases steps : Pointer.steps pointer with
  | none =>
      rw [steps] at selected
      cases selected
  | some path =>
      rw [steps] at selected
      simp only at selected
      clear steps
      induction path generalizing value with
      | nil =>
          cases selected
          exact loaded
      | cons step path ih =>
          rw [List.foldlM_cons] at selected
          obtain ⟨next, found, later⟩ := Option.bind_eq_some_iff.mp selected
          exact ih (loaded.step found) later

end Json

/-! ### Selected documents -/

/-- The same selection with another filter, or with none. -/
def Selection.withFilter (filter : Option String) (selection : Selection) : Selection :=
  { selection with filter := filter }

namespace Document

private theorem parse_of_ofText {source text : String} {document : Document}
    (read : ofText source text = .ok document) : Json.Value.parse text = .ok document.value := by
  unfold ofText at read
  split at read
  · next value parsed =>
      cases read
      exact parsed
  · cases read

private theorem parse_of_ofLine {source : String} {line : List Char × Nat} {document : Document}
    (read : ofLine source line = .ok document) :
    Json.Value.parse (String.ofList line.1) = .ok document.value := by
  unfold ofLine at read
  simp only at read
  split at read
  · next value parsed =>
      cases read
      exact parsed
  · cases read

private theorem loaded_of_allOfText {selection : Selection} {source text : String}
    {documents : List Document} (read : allOfText selection source text = .ok documents) :
    ∀ document ∈ documents, document.value.Loaded := by
  unfold allOfText at read
  split at read
  · have lines := mapM_eq_ok_iff.mp read
    intro document member
    obtain ⟨line, paired⟩ := exists_mem_zip_of_forall₂ lines.flip member
    have one : ofLine source line = .ok document := List.forall₂_zip lines.flip paired
    exact Json.Value.loaded_of_parse (parse_of_ofLine one)
  · obtain ⟨single, one, rfl⟩ := map_eq_ok_iff.mp read
    intro document member
    cases List.mem_singleton.mp member
    exact Json.Value.loaded_of_parse (parse_of_ofText one)

private theorem loaded_of_point {selection : Selection} {document part : Document}
    (loaded : document.value.Loaded) (pointed : point selection document = .ok part) :
    part.value.Loaded := by
  unfold point at pointed
  split at pointed
  · cases pointed
    exact loaded
  · split at pointed
    · next value selected =>
        cases pointed
        exact loaded.select selected
    · cases pointed

/-- The parts that are wanted of a source keep their reals. -/
def KeepsReals (selection : Selection) (source text : String) : Prop :=
  ∀ documents, allOfText selection source text = .ok documents → ∀ document ∈ documents,
    ∀ part, point selection document = .ok part → part.value.RealsKept

/-- The parts that are wanted of the files behind some inputs keep their reals. -/
def InputsKeepReals (tree : FileTree) (selection : Selection) (inputs : List String) : Prop :=
  ∀ paths, expandInputs tree inputs = .ok paths → ∀ path ∈ paths,
    ∀ text, tree.read path = .ok text → KeepsReals selection path text

section

variable [engine : FilterEngine] (echoes : engine.Echoes)

include echoes

private theorem filter_identity (selection : Selection) {document : Document}
    (loaded : document.value.Loaded) (kept : document.value.RealsKept) :
    filter (selection.withFilter (some ".")) document =
      filter (selection.withFilter none) document := by
  have run := (FilterEngine.run_identity_iff echoes loaded).mpr kept
  unfold filter Selection.withFilter
  simp only [run, List.map_cons, List.map_nil]

private theorem selectFromText_identity {selection : Selection} {source text : String}
    (kept : KeepsReals selection source text) :
    selectFromText (selection.withFilter (some ".")) source text =
      selectFromText (selection.withFilter none) source text := by
  have read : ∀ filter,
      allOfText (selection.withFilter filter) source text = allOfText selection source text :=
    fun _ => rfl
  unfold selectFromText
  rw [read, read]
  cases found : allOfText selection source text with
  | error failure => rfl
  | ok documents =>
      have selected : ∀ document ∈ documents, select (selection.withFilter (some ".")) document =
          select (selection.withFilter none) document := by
        intro document member
        unfold select
        show (point selection document >>= _) = (point selection document >>= _)
        cases pointed : point selection document with
        | error failure => rfl
        | ok part =>
            have loaded := loaded_of_point (loaded_of_allOfText found document member) pointed
            exact filter_identity echoes selection loaded (kept documents found document member part pointed)
      simp only [ok_bind, mapM_congr_of_mem selected]

private theorem load_identity {tree : FileTree} {selection : Selection} {inputs : List String}
    (kept : InputsKeepReals tree selection inputs) :
    load tree (selection.withFilter (some ".")) inputs =
      load tree (selection.withFilter none) inputs := by
  unfold load loadFiles
  cases expanded : expandInputs tree inputs with
  | error failure => rfl
  | ok paths =>
      have each : ∀ path ∈ paths,
          loadFile (selection.withFilter (some ".")) path (tree.read path) =
            loadFile (selection.withFilter none) path (tree.read path) := by
        intro path member
        unfold loadFile
        cases content : tree.read path with
        | error failure => rfl
        | ok text => simp only [selectFromText_identity echoes (kept paths expanded path member text content)]
      simp only [ok_bind, List.mapM_map, Function.comp_def, mapM_congr_of_mem each]

end

end Document

/-! ### Commands -/

namespace CommandLine

/-- The same command with another filter, or with none. -/
def Command.withFilter (filter : Option String) : Command → Command
  | .clients route query format =>
      .clients { route with selection := route.selection.withFilter filter } query format
  | .values route model =>
      .values { route with selection := route.selection.withFilter filter } model

section

variable [engine : FilterEngine]

private theorem renderTree_withFilter (coloured : Bool) (command : Command) (tree : FileTree)
    (filter : Option String) :
    (command.withFilter filter).renderTree coloured tree =
      ((Document.load tree (command.route.selection.withFilter filter) command.route.inputs).mapError
        .unloaded >>= command.render coloured) := by
  cases command with
  | clients route query format => cases format <;> rfl
  | values route model => rfl

private theorem run_identity (echoes : engine.Echoes) {coloured : Bool} {command : Command}
    {tree : FileTree}
    (kept : Document.InputsKeepReals tree command.route.selection command.route.inputs) :
    run coloured (command.withFilter (some ".")) tree =
      run coloured (command.withFilter none) tree := by
  have out : ∀ filter, (command.withFilter filter).route.out = command.route.out := by
    intro filter
    cases command <;> rfl
  unfold run
  rw [renderTree_withFilter, renderTree_withFilter, Document.load_identity echoes kept, out, out]

end

end CommandLine

end SdkClients
