import SdkClients.CommandLine.Run
import SdkClients.Proofs.ClientReport
import SdkClients.Proofs.Document.Loading

set_option autoImplicit false

/-!
Commands with several inputs.

The results of a command are those of its first inputs followed by those of the others, and the
command succeeds if it does for either part: whether a text can be delivered does not depend on the
text. A fault anywhere on the way to the text, in any document of any input, keeps the command from
delivering anything. Which of several faults is reported is left open. All of this holds whatever
the engine of the filters does.
-/

namespace SdkClients

open ClientTree (build)

/-! ### Documents without result -/

/-- What keeps a document from a report about its clients. -/
inductive ClientReport.Fault (query : ClientQuery) (document : Document) : Prop
  | undecodable {failure : Decode.Failure} :
      Decode.fromValue Decode.readContainer document.value = .error failure → Fault query document
  | unknownClient {description : ContainerDecl} {name : String} :
      Decode.fromValue Decode.readContainer document.value = .ok description →
      query.client = some name → (build description.lower query.rule).find? name = none →
      Fault query document

private theorem ClientReport.exists_ofTree_eq_error_iff {query : ClientQuery} {source : String}
    {description : ContainerDecl} :
    (∃ failure, ofTree query source (build description.lower query.rule) = .error failure) ↔
      ∃ name, query.client = some name ∧
        (build description.lower query.rule).find? name = none := by
  rw [ofTree_lower]
  unfold ContainerDecl.report
  cases asked : query.client with
  | none => simp
  | some name =>
      have laidOut := ContainerDecl.lower_eq description
      have found : Option.Rel (StandsFor description.lower query.rule)
          ((build description.lower query.rule).find? name)
          (description.placement? query.rule name) :=
        find?_stands description.lower_reachable.wellNested laidOut name
      simp only [Option.some.injEq, exists_eq_left']
      generalize (build description.lower query.rule).find? name = client at found ⊢
      generalize description.placement? query.rule name = placement at found ⊢
      cases found <;> simp

private theorem ClientReport.exists_ofDocument_eq_error_iff {query : ClientQuery}
    {document : Document} :
    (∃ failure, ofDocument query document = .error failure) ↔ Fault query document := by
  unfold ofDocument
  cases decoded : Decode.fromValue Decode.readContainer document.value with
  | error failure => exact ⟨fun _ => .undecodable decoded, fun _ => ⟨_, rfl⟩⟩
  | ok description =>
      refine exists_ofTree_eq_error_iff.trans ?_
      constructor
      · rintro ⟨name, asked, absent⟩
        exact .unknownClient decoded asked absent
      · rintro (failed | ⟨again, asked, absent⟩)
        · cases decoded.symm.trans failed
        · obtain ⟨⟩ := decoded.symm.trans again
          exact ⟨_, asked, absent⟩

/-- What keeps a document from a plain value. -/
inductive ValueReport.Fault (model : Bool) (document : Document) : Prop
  | notModel {failure : Decode.Failure} : model = true →
      Decode.fromValue Decode.readModel document.value = .error failure → Fault model document
  | notTyped {failure : Decode.Failure} : model = false →
      Decode.fromValue Decode.readTyped document.value = .error failure → Fault model document

private theorem ValueReport.exists_ofDocument_eq_error_iff {model : Bool} {document : Document} :
    (∃ failure, ofDocument model document = .error failure) ↔ Fault model document := by
  unfold ofDocument
  cases model with
  | false =>
      rw [if_neg Bool.false_ne_true]
      unfold ofTyped
      cases decoded : Decode.fromValue Decode.readTyped document.value with
      | error failure => exact ⟨fun _ => .notTyped rfl decoded, fun _ => ⟨_, rfl⟩⟩
      | ok value =>
          constructor
          · rintro ⟨_, ⟨⟩⟩
          · rintro (⟨⟨⟩, _⟩ | ⟨_, failed⟩)
            cases decoded.symm.trans failed
  | true =>
      rw [if_pos rfl]
      unfold ofModel
      cases decoded : Decode.fromValue Decode.readModel document.value with
      | error failure => exact ⟨fun _ => .notModel rfl decoded, fun _ => ⟨_, rfl⟩⟩
      | ok value =>
          constructor
          · rintro ⟨_, ⟨⟩⟩
          · rintro (⟨_, failed⟩ | ⟨⟨⟩, _⟩)
            cases decoded.symm.trans failed

/-! ### Delivery -/

/-- Where a file is written, or why it cannot be, does not depend on its text. -/
private theorem FileTree.exists_place (tree : FileTree) (path : String) :
    ∃ place : Except FileError (List String), ∀ text, tree.write path text = place.map fun names =>
      { tree with root := (FileEntry.file (some text)).put names tree.root } := by
  unfold write
  cases checkPath path with
  | error failure => exact ⟨.error failure, fun _ => rfl⟩
  | ok checked =>
      simp only [ok_bind]
      generalize ((parts path).reverse.dropWhile (· == "")).reverse = steps
      generalize tree.origin path = start
      cases steps.getLast? with
      | none => exact ⟨.error _, fun _ => rfl⟩
      | some name =>
          dsimp only
          by_cases dots : name = "." ∨ name = ".."
          · simp only [dots, if_true]
            cases tree.walk start steps <;> exact ⟨.error _, fun _ => rfl⟩
          · simp only [dots, if_false]
            cases tree.walk start steps.dropLast with
            | error failure => exact ⟨.error failure, fun _ => rfl⟩
            | ok parent =>
                simp only [ok_bind]
                cases tree.root.find? parent with
                | none => exact ⟨.error _, fun _ => rfl⟩
                | some entry =>
                    cases entry with
                    | file text => exact ⟨.error _, fun _ => rfl⟩
                    | directory entries =>
                        dsimp only
                        by_cases slash : Text.endsWith path '/'
                        · simp only [slash, if_true]
                          exact ⟨.error _, fun _ => rfl⟩
                        · simp only [slash, if_false, Bool.false_eq_true]
                          cases checkName name with
                          | error failure => exact ⟨.error failure, fun _ => rfl⟩
                          | ok fine =>
                              simp only [ok_bind]
                              cases Keyed.get? entries name with
                              | none => exact ⟨.ok (parent ++ [name]), fun _ => rfl⟩
                              | some known =>
                                  cases known with
                                  | directory => exact ⟨.error _, fun _ => rfl⟩
                                  | file => exact ⟨.ok (parent ++ [name]), fun _ => rfl⟩

namespace CommandLine

private theorem deliver_failure_eq (out : Option String) (text other : String) (tree : FileTree) :
    (deliver out text tree).failure = (deliver out other tree).failure := by
  cases out with
  | none => rfl
  | some path =>
      dsimp only [deliver, deliverTo]
      cases tree.makeParents path with
      | error error => dsimp only
      | ok ready =>
          obtain ⟨place, written⟩ := ready.exists_place path
          dsimp only
          rw [written, written]
          cases place <;> dsimp only [Except.map]

/-! ### Results -/

section

variable [FilterEngine]

/-- What is made of the documents of some inputs. -/
def resultsOf {δ α : Type} (convert : Document → Except δ α) (reason : δ → RunError)
    (tree : FileTree) (selection : Selection) (inputs : List String) :
    Except RunError (List α) := do
  let documents ← (Document.load tree selection inputs).mapError .unloaded
  (documents.mapM convert).mapError reason

section

variable {δ α : Type} (convert : Document → Except δ α) (reason : δ → RunError)
  (tree : FileTree) (selection : Selection)

private theorem gathers_resultsOf : Gathers (resultsOf convert reason tree selection) :=
  ((Document.gathers_load tree selection).mapError _).bind ((gathers_mapM convert).mapError reason)

private theorem exists_resultsOf_eq_error_iff (inputs : List String) :
    (∃ failure, resultsOf convert reason tree selection inputs = .error failure) ↔
      Document.Fault tree selection inputs ∨
        ∃ document, Document.Wanted tree selection inputs document ∧
          ∃ failure, convert document = .error failure := by
  unfold resultsOf
  rw [exists_chain_eq_error_iff
    (fun _ loaded _ => Document.mem_load (mapError_eq_ok_iff.mp loaded))
    (fun _ => exists_mapError_eq_error_iff.trans exists_mapM_eq_error_iff),
    exists_mapError_eq_error_iff, Document.exists_load_eq_error_iff]

end

/-- The reports about the documents of some inputs. -/
def reportsOf (query : ClientQuery) :
    FileTree → Selection → List String → Except RunError (List ClientReport) :=
  resultsOf (ClientReport.ofDocument query) .noClients

/-- The plain values of the documents of some inputs. -/
def valuesOf (model : Bool) :
    FileTree → Selection → List String → Except RunError (List Json.Value) :=
  resultsOf (ValueReport.ofDocument model) .noValues

/-- The reports in the format that is asked for. -/
def formatted (coloured : Bool) : ReportFormat → List ClientReport → String
  | .json => ClientReport.renderJson
  | .text => ClientReport.renderText coloured

private theorem renderTree_clients (coloured : Bool) (route : Route) (query : ClientQuery)
    (format : ReportFormat) (tree : FileTree) :
    (Command.clients route query format).renderTree coloured tree =
      (reportsOf query tree route.selection route.inputs).map (formatted coloured format) := by
  unfold Command.renderTree reportsOf resultsOf
  dsimp only [Command.route]
  cases Document.load tree route.selection route.inputs <;> cases format <;> rfl

private theorem renderTree_values (coloured : Bool) (route : Route) (model : Bool)
    (tree : FileTree) :
    (Command.values route model).renderTree coloured tree =
      (valuesOf model tree route.selection route.inputs).map ValueReport.render := by
  unfold Command.renderTree valuesOf resultsOf
  dsimp only [Command.route]
  cases Document.load tree route.selection route.inputs <;> rfl

/-- The same command for other inputs. -/
def Command.withInputs (inputs : List String) : Command → Command
  | .clients route query format => .clients { route with inputs := inputs } query format
  | .values route model => .values { route with inputs := inputs } model

private theorem exists_renderTree_append (coloured : Bool) (command : Command) (tree : FileTree)
    (first second : List String) :
    (∃ text, (command.withInputs (first ++ second)).renderTree coloured tree = .ok text) ↔
      (∃ text, (command.withInputs first).renderTree coloured tree = .ok text) ∧
        ∃ text, (command.withInputs second).renderTree coloured tree = .ok text := by
  cases command with
  | clients route query format =>
      simp only [Command.withInputs, renderTree_clients, exists_map_eq_ok_iff]
      exact (gathers_resultsOf _ _ tree route.selection).exists_ok_iff first second
  | values route model =>
      simp only [Command.withInputs, renderTree_values, exists_map_eq_ok_iff]
      exact (gathers_resultsOf _ _ tree route.selection).exists_ok_iff first second

private theorem run_failure_eq_none_iff (coloured : Bool) (command : Command) (tree : FileTree) :
    (run coloured command tree).failure = none ↔
      (∃ text, command.renderTree coloured tree = .ok text) ∧
        (deliver command.route.out "" tree).failure = none := by
  unfold run
  cases command.renderTree coloured tree with
  | error failure => simp
  | ok text =>
      dsimp only
      rw [deliver_failure_eq command.route.out text ""]
      simp

private theorem run_append_failure_eq_none_iff (coloured : Bool) (command : Command)
    (tree : FileTree)
    (first second : List String) :
    (run coloured (command.withInputs (first ++ second)) tree).failure = none ↔
      (run coloured (command.withInputs first) tree).failure = none ∧
        (run coloured (command.withInputs second) tree).failure = none := by
  have out : ∀ inputs, (command.withInputs inputs).route.out = command.route.out := by
    intro inputs
    cases command <;> rfl
  simp only [run_failure_eq_none_iff, out, exists_renderTree_append]
  exact and_and_right

/-! ### Faults -/

/-- What is wrong on the way to the text of a command. -/
inductive Fault (tree : FileTree) : Command → Prop
  | loading {command : Command} :
      Document.Fault tree command.route.selection command.route.inputs → Fault tree command
  | report {route : Route} {query : ClientQuery} {format : ReportFormat} {document : Document} :
      Document.Wanted tree route.selection route.inputs document →
      ClientReport.Fault query document → Fault tree (.clients route query format)
  | value {route : Route} {model : Bool} {document : Document} :
      Document.Wanted tree route.selection route.inputs document →
      ValueReport.Fault model document → Fault tree (.values route model)

private theorem exists_renderTree_eq_error_iff {coloured : Bool} {command : Command}
    {tree : FileTree} :
    (∃ failure, command.renderTree coloured tree = .error failure) ↔ Fault tree command := by
  cases command with
  | clients route query format =>
      rw [renderTree_clients, exists_map_eq_error_iff, reportsOf, exists_resultsOf_eq_error_iff]
      simp only [ClientReport.exists_ofDocument_eq_error_iff]
      constructor
      · rintro (loading | ⟨document, wanted, fault⟩)
        · exact .loading loading
        · exact .report wanted fault
      · rintro (loading | ⟨wanted, fault⟩)
        · exact .inl loading
        · exact .inr ⟨_, wanted, fault⟩
  | values route model =>
      rw [renderTree_values, exists_map_eq_error_iff, valuesOf, exists_resultsOf_eq_error_iff]
      simp only [ValueReport.exists_ofDocument_eq_error_iff]
      constructor
      · rintro (loading | ⟨document, wanted, fault⟩)
        · exact .loading loading
        · exact .value wanted fault
      · rintro (loading | - | ⟨wanted, fault⟩)
        · exact .inl loading
        · exact .inr ⟨_, wanted, fault⟩

end

/-- How a command goes together from its inputs, and what becomes of it if something is wrong. -/
structure Composes [FilterEngine] (coloured : Bool) (tree : FileTree) : Prop where
  documents : ∀ selection, Gathers (Document.load tree selection)
  wanted : ∀ selection inputs documents, Document.load tree selection inputs = .ok documents →
    ∀ document, document ∈ documents ↔ Document.Wanted tree selection inputs document
  reports : ∀ query selection, Gathers (reportsOf query tree selection)
  reported : ∀ route query format, (Command.clients route query format).renderTree coloured tree =
    (reportsOf query tree route.selection route.inputs).map (formatted coloured format)
  values : ∀ model selection, Gathers (valuesOf model tree selection)
  valued : ∀ route model, (Command.values route model).renderTree coloured tree =
    (valuesOf model tree route.selection route.inputs).map ValueReport.render
  succeeds : ∀ (command : Command) first second,
    (run coloured (command.withInputs (first ++ second)) tree).failure = none ↔
      (run coloured (command.withInputs first) tree).failure = none ∧
        (run coloured (command.withInputs second) tree).failure = none
  /-- A fault anywhere leaves nothing printed and every file as it was. -/
  fails : ∀ command, Fault tree command → ∃ failure,
    command.renderTree coloured tree = .error failure ∧
      run coloured command tree = ⟨"", tree, some failure⟩
  /-- Only without any fault something is delivered, and then it is the whole text. -/
  delivers : ∀ command, ¬ Fault tree command → ∃ text,
    command.renderTree coloured tree = .ok text ∧
      run coloured command tree = deliver command.route.out text tree

theorem inputs_compose [FilterEngine] (coloured : Bool) (tree : FileTree) : Composes coloured tree where
  documents := Document.gathers_load tree
  wanted := fun _ _ _ loaded _ => Document.mem_load loaded
  reports := fun query => gathers_resultsOf (ClientReport.ofDocument query) .noClients tree
  values := fun model => gathers_resultsOf (ValueReport.ofDocument model) .noValues tree
  reported := fun route query format => renderTree_clients coloured route query format tree
  valued := fun route model => renderTree_values coloured route model tree
  succeeds := fun command => run_append_failure_eq_none_iff coloured command tree
  fails := by
    intro command fault
    obtain ⟨failure, failed⟩ := exists_renderTree_eq_error_iff.mpr fault
    exact ⟨failure, failed, by rw [run, failed]⟩
  delivers := by
    intro command faultless
    rw [← exists_renderTree_eq_error_iff, ← exists_ok_iff_not_error] at faultless
    obtain ⟨text, made⟩ := faultless
    exact ⟨text, made, by rw [run, made]⟩

end CommandLine

end SdkClients
