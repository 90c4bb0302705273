import SdkClients.Document.Loading
import SdkClients.Proofs.Gathering

set_option autoImplicit false

/-!
What loading documents takes.

Inputs are loaded one by one as far as the documents are concerned: those of more inputs come behind
those of the first ones. Loading fails exactly if something is wrong somewhere on the way of one
document: with a pattern, a file, a text, a line of it, a pointer, or a filter.
-/

namespace SdkClients

namespace FilterEngine

/-- An output that no document can be made of. -/
inductive Spoils : FilterOutput → Prop
  | notJson {content : String} {fault : Json.Malformed} :
      Json.Value.parse content = .error fault → Spoils (.text content)
  | error (reason : String) : Spoils (.error reason)
  | unending : Spoils .unending

private theorem exists_readBack_eq_error_iff {outputs : List FilterOutput} :
    (∃ failure, readBack outputs = .error failure) ↔ ∃ output ∈ outputs, Spoils output := by
  induction outputs with
  | nil => simp [readBack]
  | cons output outputs ih =>
      rw [List.exists_mem_cons_iff, ← ih]
      cases output with
      | error reason => exact ⟨fun _ => .inl (.error reason), fun _ => ⟨_, rfl⟩⟩
      | unending => exact ⟨fun _ => .inl .unending, fun _ => ⟨_, rfl⟩⟩
      | text content =>
          rw [readBack]
          cases parsed : Json.Value.parse content with
          | error fault => exact ⟨fun _ => .inl (.notJson parsed), fun _ => ⟨_, rfl⟩⟩
          | ok document =>
              have fine : ¬ Spoils (.text content) := by
                intro spoils
                cases spoils with
                | notJson failed => cases parsed.symm.trans failed
              simp [exists_bind_eq_error_iff, pure, Except.pure, fine]

variable [FilterEngine]

/-- What is wrong with a filter or with one of the outputs that it gives for a document. -/
inductive Fault (source : String) (document : Json.Value) : Prop
  | refused {refusal : FilterRefusal} : compile source = .error refusal → Fault source document
  | output {filter : Json.Value → List FilterOutput} {output : FilterOutput} :
      compile source = .ok filter → output ∈ filter document → Spoils output →
      Fault source document

private theorem exists_run_eq_error_iff {source : String} {document : Json.Value} :
    (∃ failure, run source document = .error failure) ↔ Fault source document := by
  unfold run
  cases compiled : FilterEngine.compile source with
  | error refusal => exact ⟨fun _ => .refused compiled, fun _ => ⟨_, rfl⟩⟩
  | ok filter =>
      refine exists_readBack_eq_error_iff.trans ⟨?_, ?_⟩
      · rintro ⟨output, member, spoils⟩
        exact .output compiled member spoils
      · rintro (failed | ⟨again, member, spoils⟩)
        · cases compiled.symm.trans failed
        · obtain ⟨⟩ := compiled.symm.trans again
          exact ⟨_, member, spoils⟩

end FilterEngine

namespace Document

variable {tree : FileTree} {selection : Selection} {inputs : List String}

/-! ### Inputs and their texts -/

theorem expandInputs_eq (tree : FileTree) : expandInputs tree = gatherEach (expandInput tree) := rfl

/-- One of the documents of a text. -/
inductive Holds (selection : Selection) (source text : String) : Document → Prop
  | whole {document : Document} : selection.perLine = false →
      ofText source text = .ok document → Holds selection source text document
  | line {line : List Char × Nat} {document : Document} : selection.perLine = true →
      line ∈ numberedLines text → ofLine source line = .ok document →
      Holds selection source text document

/-- One of the paths that inputs stand for. -/
def Reaches (tree : FileTree) (inputs : List String) (path : String) : Prop :=
  ∃ input ∈ inputs, ∃ paths, expandInput tree input = .ok paths ∧ path ∈ paths

/-- One of the documents in the files of some inputs. -/
def Found (tree : FileTree) (selection : Selection) (inputs : List String)
    (document : Document) : Prop :=
  ∃ path text, Reaches tree inputs path ∧ tree.read path = .ok text ∧
    Holds selection path text document

private theorem mem_allOfText {source text : String} {documents : List Document}
    (read : allOfText selection source text = .ok documents) {document : Document} :
    document ∈ documents ↔ Holds selection source text document := by
  unfold allOfText at read
  cases perLine : selection.perLine with
  | false =>
      simp only [perLine, Bool.false_eq_true, if_false, map_eq_ok_iff] at read
      obtain ⟨single, made, rfl⟩ := read
      rw [List.mem_singleton]
      constructor
      · rintro rfl
        exact .whole perLine made
      · intro holds
        cases holds with
        | whole _ again => exact Except.ok.inj (again.symm.trans made)
        | line absurd => cases perLine.symm.trans absurd
  | true =>
      rw [if_pos perLine] at read
      rw [mem_mapM read]
      constructor
      · rintro ⟨line, member, made⟩
        exact .line perLine member made
      · intro holds
        cases holds with
        | whole absurd => cases perLine.symm.trans absurd
        | line _ member made => exact ⟨_, member, made⟩

private theorem mem_expandInputs {paths : List String}
    (expanded : expandInputs tree inputs = .ok paths)
    {path : String} : path ∈ paths ↔ Reaches tree inputs path :=
  mem_gatherEach expanded

private theorem exists_expandInput_eq_error_iff {input : String} :
    (∃ failure, expandInput tree input = .error failure) ↔ isPattern input = true ∧
      ((∃ error, Glob.expand tree input = .error error) ∨ Glob.expand tree input = .ok []) := by
  unfold expandInput
  cases isPattern input with
  | false => simp
  | true =>
      cases Glob.expand tree input with
      | error error => simp
      | ok paths => cases paths <;> simp

private theorem exists_point_eq_error_iff {document : Document} :
    (∃ failure, point selection document = .error failure) ↔ ∃ pointer,
      selection.pointer = some pointer ∧ Json.Pointer.select? pointer document.value = none := by
  unfold point
  cases selection.pointer with
  | none => simp
  | some pointer => cases selected : Json.Pointer.select? pointer document.value <;> simp [selected]

/-- Why a text is not read. -/
inductive Unreadable (selection : Selection) (text : String) : Prop
  | whole {fault : Json.Malformed} : selection.perLine = false →
      Json.Value.parse text = .error fault → Unreadable selection text
  | line {line : List Char × Nat} {fault : Json.Malformed} : selection.perLine = true →
      line ∈ numberedLines text → Json.Value.parse (String.ofList line.1) = .error fault →
      Unreadable selection text

private theorem exists_ofText_eq_error_iff {source text : String} :
    (∃ failure, ofText source text = .error failure) ↔
      ∃ fault, Json.Value.parse text = .error fault := by
  unfold ofText
  cases Json.Value.parse text <;> simp

private theorem exists_ofLine_eq_error_iff {source : String} {line : List Char × Nat} :
    (∃ failure, ofLine source line = .error failure) ↔
      ∃ fault, Json.Value.parse (String.ofList line.1) = .error fault := by
  unfold ofLine
  cases Json.Value.parse (String.ofList line.1) <;> simp

private theorem exists_allOfText_eq_error_iff {source text : String} :
    (∃ failure, allOfText selection source text = .error failure) ↔
      Unreadable selection text := by
  unfold allOfText
  cases perLine : selection.perLine with
  | false =>
      simp only [Bool.false_eq_true, if_false, exists_map_eq_error_iff, exists_ofText_eq_error_iff]
      constructor
      · rintro ⟨fault, unread⟩
        exact .whole perLine unread
      · rintro (⟨_, unread⟩ | absurd)
        · exact ⟨_, unread⟩
        · cases perLine.symm.trans absurd
  | true =>
      simp only [if_true, exists_mapM_eq_error_iff, exists_ofLine_eq_error_iff]
      constructor
      · rintro ⟨line, member, fault, unread⟩
        exact .line perLine member unread
      · rintro (absurd | ⟨_, member, unread⟩)
        · cases perLine.symm.trans absurd
        · exact ⟨_, member, _, unread⟩

/-! ### What is loaded -/

variable [FilterEngine]

theorem selectFromText_eq (selection : Selection) (source text : String) :
    selectFromText selection source text =
      (allOfText selection source text >>= gatherEach (select selection)) := rfl

theorem load_eq (tree : FileTree) (selection : Selection) (inputs : List String) :
    load tree selection inputs = (expandInputs tree inputs >>=
      gatherEach fun path => loadFile selection path (tree.read path)) := by
  unfold load loadFiles gatherEach
  simp only [List.mapM_map]
  rfl

/-- Loading from more inputs is loading from the first ones and then from the others. -/
theorem gathers_load (tree : FileTree) (selection : Selection) :
    Gathers (load tree selection) := by
  have chained := (gathers_gatherEach (expandInput tree)).bind
    (gathers_gatherEach fun path => loadFile selection path (tree.read path))
  intro first second results
  simp only [load_eq, expandInputs_eq]
  exact chained first second results

/-- One of the documents that are made of those in the files. -/
def Wanted (tree : FileTree) (selection : Selection) (inputs : List String)
    (document : Document) : Prop :=
  ∃ found, Found tree selection inputs found ∧
    ∃ documents, select selection found = .ok documents ∧ document ∈ documents

private theorem mem_selectFromText {source text : String} {documents : List Document}
    (selected : selectFromText selection source text = .ok documents) {document : Document} :
    document ∈ documents ↔ ∃ found, Holds selection source text found ∧
      ∃ made, select selection found = .ok made ∧ document ∈ made := by
  rw [selectFromText_eq, bind_eq_ok_iff] at selected
  obtain ⟨found, read, gathered⟩ := selected
  simp only [mem_gatherEach gathered, mem_allOfText read]

theorem loadFile_eq_ok_iff {path : String} {content : Except FileError String}
    {documents : List Document} : loadFile selection path content = .ok documents ↔
      ∃ text, content = .ok text ∧ selectFromText selection path text = .ok documents := by
  unfold loadFile
  cases content with
  | error error => simp
  | ok text => simp [mapError_eq_ok_iff]

theorem mem_load {documents : List Document} (loaded : load tree selection inputs = .ok documents)
    {document : Document} : document ∈ documents ↔ Wanted tree selection inputs document := by
  rw [load_eq, bind_eq_ok_iff] at loaded
  obtain ⟨paths, expanded, gathered⟩ := loaded
  simp only [mem_gatherEach gathered, mem_expandInputs expanded, loadFile_eq_ok_iff]
  constructor
  · rintro ⟨path, reached, list, ⟨text, content, selected⟩, inside⟩
    obtain ⟨found, holds, made⟩ := (mem_selectFromText selected).mp inside
    exact ⟨found, ⟨path, text, reached, content, holds⟩, made⟩
  · rintro ⟨found, ⟨path, text, reached, content, holds⟩, made⟩
    obtain ⟨list, loaded⟩ := exists_of_gatherEach gathered ((mem_expandInputs expanded).mpr reached)
    obtain ⟨text, again, selected⟩ := loadFile_eq_ok_iff.mp loaded
    obtain ⟨⟩ := content.symm.trans again
    exact ⟨path, reached, list, ⟨text, again, selected⟩,
      (mem_selectFromText selected).mpr ⟨found, holds, made⟩⟩

/-! ### What can be wrong -/

private theorem exists_filter_eq_error_iff {document : Document} :
    (∃ failure, filter selection document = .error failure) ↔ ∃ expression,
      selection.filter = some expression ∧ FilterEngine.Fault expression document.value := by
  unfold filter
  cases selection.filter with
  | none => simp
  | some expression =>
      simp only [Option.some.injEq, exists_eq_left', ← FilterEngine.exists_run_eq_error_iff]
      cases FilterEngine.run expression document.value <;> simp

/-- Why a document is not selected. -/
inductive Unselectable (selection : Selection) (document : Document) : Prop
  | nothingThere {pointer : String} : selection.pointer = some pointer →
      Json.Pointer.select? pointer document.value = none → Unselectable selection document
  | filterFails {part : Document} {expression : String} : point selection document = .ok part →
      selection.filter = some expression → FilterEngine.Fault expression part.value →
      Unselectable selection document

private theorem exists_select_eq_error_iff {document : Document} :
    (∃ failure, select selection document = .error failure) ↔
      Unselectable selection document := by
  unfold select
  rw [exists_bind_eq_error_iff, exists_point_eq_error_iff]
  simp only [exists_filter_eq_error_iff]
  constructor
  · rintro (⟨pointer, given, absent⟩ | ⟨part, pointed, expression, given, fault⟩)
    · exact .nothingThere given absent
    · exact .filterFails pointed given fault
  · rintro (⟨given, absent⟩ | ⟨pointed, given, fault⟩)
    · exact .inl ⟨_, given, absent⟩
    · exact .inr ⟨_, pointed, _, given, fault⟩

private theorem exists_loadFile_eq_error_iff {path : String} {content : Except FileError String} :
    (∃ failure, loadFile selection path content = .error failure) ↔
      (∃ error, content = .error error) ∨ ∃ text, content = .ok text ∧
        (Unreadable selection text ∨
          ∃ document, Holds selection path text document ∧ Unselectable selection document) := by
  have selecting : ∀ text, (∃ failure, selectFromText selection path text = .error failure) ↔
      Unreadable selection text ∨
        ∃ document, Holds selection path text document ∧ Unselectable selection document := by
    intro text
    rw [selectFromText_eq, exists_chain_eq_error_iff (fun _ read _ => mem_allOfText read)
      (fun _ => exists_gatherEach_eq_error_iff), exists_allOfText_eq_error_iff]
    simp only [exists_select_eq_error_iff]
  unfold loadFile
  cases content with
  | error error => simp
  | ok text => simp [exists_mapError_eq_error_iff, selecting]

/-- Why some inputs are not loaded. -/
inductive Fault (tree : FileTree) (selection : Selection) (inputs : List String) : Prop
  | badPattern {input : String} {error : Glob.PatternError} : input ∈ inputs →
      isPattern input = true → Glob.expand tree input = .error error → Fault tree selection inputs
  | noMatch {input : String} : input ∈ inputs → isPattern input = true →
      Glob.expand tree input = .ok [] → Fault tree selection inputs
  | noText {path : String} {error : FileError} : Reaches tree inputs path →
      tree.read path = .error error → Fault tree selection inputs
  | unreadable {path text : String} : Reaches tree inputs path → tree.read path = .ok text →
      Unreadable selection text → Fault tree selection inputs
  | unselectable {document : Document} : Found tree selection inputs document →
      Unselectable selection document → Fault tree selection inputs

theorem exists_load_eq_error_iff :
    (∃ failure, load tree selection inputs = .error failure) ↔ Fault tree selection inputs := by
  rw [load_eq, exists_chain_eq_error_iff (fun _ expanded _ => mem_expandInputs expanded)
    (fun _ => exists_gatherEach_eq_error_iff), expandInputs_eq, exists_gatherEach_eq_error_iff]
  simp only [exists_expandInput_eq_error_iff, exists_loadFile_eq_error_iff]
  constructor
  · rintro (⟨input, member, pattern, ⟨error, bad⟩ | none⟩ |
      ⟨path, reached, ⟨error, failed⟩ | ⟨text, content, unread | ⟨document, holds, fault⟩⟩⟩)
    · exact .badPattern member pattern bad
    · exact .noMatch member pattern none
    · exact .noText reached failed
    · exact .unreadable reached content unread
    · exact .unselectable ⟨path, text, reached, content, holds⟩ fault
  · intro fault
    cases fault with
    | badPattern member pattern bad => exact .inl ⟨_, member, pattern, .inl ⟨_, bad⟩⟩
    | noMatch member pattern none => exact .inl ⟨_, member, pattern, .inr none⟩
    | noText reached failed => exact .inr ⟨_, reached, .inl ⟨_, failed⟩⟩
    | unreadable reached content unread => exact .inr ⟨_, reached, .inr ⟨_, content, .inl unread⟩⟩
    | unselectable found fault =>
        obtain ⟨path, text, reached, content, holds⟩ := found
        exact .inr ⟨path, reached, .inr ⟨text, content, .inr ⟨_, holds, fault⟩⟩⟩


end Document

end SdkClients
