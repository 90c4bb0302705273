import SdkClients.Description.Lowering
import SdkClients.Proofs.ContainerGraph.Consistency

set_option autoImplicit false

/-!
Graphs only grow.

Whatever is called on a graph, its positions keep their containers: names, kinds and parents stay,
lists are continued at the end, and marks are not taken away. So a position that a call has given
back can be kept and used later on. Lowering relies on it. It goes on below a container after others
have been added, with the positions that its own calls have given back, and none of its calls is
refused.
-/

namespace SdkClients

/-- The same container at an earlier and at a later time. -/
structure Container.Extends (earlier later : Container) : Prop where
  name : later.name = earlier.name
  kind : later.kind = earlier.kind
  parent : later.parent = earlier.parent
  operations : earlier.operations <+: later.operations
  namespaces : earlier.namespaces <+: later.namespaces
  interfaces : earlier.interfaces <+: later.interfaces
  service : earlier.service = true → later.service = true
  client : earlier.client = true → later.client = true

namespace Container

private theorem Extends.refl (container : Container) : container.Extends container :=
  ⟨rfl, rfl, rfl, List.prefix_rfl, List.prefix_rfl, List.prefix_rfl, id, id⟩

private theorem Extends.trans {first second third : Container} (left : first.Extends second)
    (right : second.Extends third) : first.Extends third where
  name := right.name.trans left.name
  kind := right.kind.trans left.kind
  parent := right.parent.trans left.parent
  operations := left.operations.trans right.operations
  namespaces := left.namespaces.trans right.namespaces
  interfaces := left.interfaces.trans right.interfaces
  service := right.service ∘ left.service
  client := right.client ∘ left.client

private theorem extends_withChild (container : Container) (kind : ContainerKind)
    (child : ContainerId) :
    container.Extends (container.withChild kind child) := by
  cases kind with
  | nameSpace => exact { Extends.refl container with namespaces := List.prefix_append _ _ }
  | interface => exact { Extends.refl container with interfaces := List.prefix_append _ _ }

private theorem extends_withOperation (container : Container) (operation : String) :
    container.Extends (container.withOperation operation) :=
  { Extends.refl container with operations := List.prefix_append _ _ }

private theorem extends_markedService (container : Container) :
    container.Extends container.markedService :=
  { Extends.refl container with service := fun _ => rfl }

private theorem extends_markedClient (container : Container) :
    container.Extends container.markedClient :=
  { Extends.refl container with client := fun _ => rfl }

end Container

namespace ContainerGraph

/-- Every position of the earlier graph holds the same container in the later one. -/
def Extends (earlier later : ContainerGraph) : Prop :=
  ∀ id container, earlier.container? id = some container →
    ∃ grown, later.container? id = some grown ∧ container.Extends grown

private theorem Extends.refl (graph : ContainerGraph) : graph.Extends graph :=
  fun _ container found => ⟨container, found, .refl container⟩

private theorem Extends.trans {first second third : ContainerGraph} (left : first.Extends second)
    (right : second.Extends third) : first.Extends third := by
  intro id container found
  obtain ⟨grown, between, leftGrowth⟩ := left id container found
  obtain ⟨last, located, rightGrowth⟩ := right id grown between
  exact ⟨last, located, leftGrowth.trans rightGrowth⟩

private theorem Extends.lt_size {earlier later : ContainerGraph} (growth : earlier.Extends later)
    {id : ContainerId} (present : id < earlier.size) : id < later.size := by
  obtain ⟨container, found⟩ := exists_container_of_lt present
  obtain ⟨_, located, -⟩ := growth id container found
  exact lt_size_of_container? located

variable {graph : ContainerGraph}

private theorem extends_update (id : ContainerId) {change : Container → Container}
    (grows : ∀ container : Container, container.Extends (change container)) :
    graph.Extends (graph.update id change) := by
  intro other container found
  rw [container?_update, found]
  split
  · exact ⟨change container, rfl, grows container⟩
  · exact ⟨container, rfl, .refl container⟩

private theorem extends_put (added : Container) : graph.Extends ⟨graph.containers ++ [added]⟩ := by
  intro id container found
  refine ⟨container, ?_, .refl container⟩
  rw [container?, List.getElem?_append_left (lt_size_of_container? found)]
  exact found

/-! ### Calls that give something back -/

/-- What a caller does to a graph. It ends with an answer or with a refusal, and it leaves a graph
behind in both cases. -/
abbrev Building := EStateM UnknownContainer ContainerGraph

namespace Building

def pass (stage : Stage) : Building Unit := fun graph =>
  match stage.act graph with
  | .ok changed => .ok () changed
  | .error refusal => .error refusal graph

def edit (id : ContainerId) (change : Container → Container) : Building Unit :=
  pass (.edit id change)

/-- Adds a container and gives its position back. -/
def add (kind : ContainerKind) (parent : ContainerId) (name : String) : Building ContainerId := do
  let position := (← get).size
  edit parent fun container => container.withChild kind position
  pass (.put (.bare name kind (some parent)))
  return position

/-- Makes a call. The answer is the position of the container that it adds. -/
def make : Step → Building (Option ContainerId)
  | .addNamespace parent name => do
      return some (← add .nameSpace parent name)
  | .addInterface parent name => do
      return some (← add .interface parent name)
  | .addOperation container name => do
      edit container fun found => found.withOperation name
      return none
  | .markService container => do
      edit container Container.markedService
      return none
  | .markClient container => do
      edit container Container.markedClient
      return none

def editIf (wanted : Bool) (id : ContainerId) (change : Container → Container) : Building Unit :=
  if wanted then edit id change else pure ()

def fillOwn (id : ContainerId) (service client : Bool) (operations : List String) :
    Building Unit := do
  editIf service id Container.markedService
  editIf client id Container.markedClient
  forM operations fun operation => edit id fun found => found.withOperation operation

mutual

/-- Gives the container at a position the content of a declaration. What is declared inside goes
below the positions that the calls give back. -/
def fill (id : ContainerId) : ContainerDecl → Building Unit
  | ⟨_, service, client, operations, namespaces, interfaces⟩ => do
      fillOwn id service client operations
      fillAll id .nameSpace namespaces
      fillAll id .interface interfaces

def fillAll (id : ContainerId) (kind : ContainerKind) : List ContainerDecl → Building Unit
  | [] => pure ()
  | declaration :: others => do
      let child ← add kind id declaration.name
      fill child declaration
      fillAll id kind others

end

/-! ### Every action leaves an extension behind -/

def after {α : Type} (action : Building α) (graph : ContainerGraph) : ContainerGraph :=
  match action graph with
  | .ok _ later => later
  | .error _ later => later

/-- An action that only adds to its graph, whether it is refused or not. -/
def Appends {α : Type} (action : Building α) : Prop :=
  ∀ graph : ContainerGraph, graph.Extends (action.after graph)

section Actions

variable {α β : Type}

private theorem Appends.of_ok {action : Building α} (appends : Appends action)
    {graph later : ContainerGraph} {answer : α} (done : action graph = .ok answer later) :
    graph.Extends later := by
  have growth := appends graph
  rwa [after, done] at growth

private theorem bind_of_ok {action : Building α} {graph later : ContainerGraph} {answer : α}
    (done : action graph = .ok answer later) (next : α → Building β) :
    (action >>= next) graph = next answer later := by
  change EStateM.bind action next graph = _
  rw [EStateM.bind, done]

private theorem bind_of_error {action : Building α} {graph later : ContainerGraph}
    {refusal : UnknownContainer} (refused : action graph = .error refusal later)
    (next : α → Building β) : (action >>= next) graph = .error refusal later := by
  change EStateM.bind action next graph = _
  rw [EStateM.bind, refused]

private theorem appends_pure (answer : α) : Appends (pure answer) := fun graph => .refl graph

private theorem Appends.bind {action : Building α} {next : α → Building β} (first : Appends action)
    (rest : ∀ answer, Appends (next answer)) : Appends (action >>= next) := by
  intro graph
  have growth := first graph
  unfold after at growth ⊢
  cases ran : action graph with
  | ok answer later =>
      rw [ran] at growth
      rw [bind_of_ok ran]
      exact growth.trans (rest answer later)
  | error refusal later =>
      rw [ran] at growth
      rw [bind_of_error ran]
      exact growth

end Actions

private theorem edit_of_lt {graph : ContainerGraph} {id : ContainerId} (present : id < graph.size)
    (change : Container → Container) : edit id change graph = .ok () (graph.update id change) := by
  have done : (Stage.edit id change).act graph = .ok (graph.update id change) := if_pos present
  rw [edit, pass, done]

private theorem edit_of_le {graph : ContainerGraph} {id : ContainerId} (absent : graph.size ≤ id)
    (change : Container → Container) : edit id change graph = .error ⟨id, graph.size⟩ graph := by
  have refused : (Stage.edit id change).act graph = .error ⟨id, graph.size⟩ :=
    if_neg (Nat.not_lt.mpr absent)
  rw [edit, pass, refused]

private theorem appends_edit (id : ContainerId) {change : Container → Container}
    (grows : ∀ container : Container, container.Extends (change container)) :
    Appends (edit id change) := by
  intro graph
  rw [after]
  rcases Nat.lt_or_ge id graph.size with present | absent
  · rw [edit_of_lt present]
    exact extends_update id grows
  · rw [edit_of_le absent]
    exact .refl graph

private theorem appends_put (added : Container) : Appends (pass (.put added)) :=
  fun _ => extends_put added

private theorem appends_add (kind : ContainerKind) (parent : ContainerId) (name : String) :
    Appends (add kind parent name) := by
  unfold add
  refine .bind (fun graph => .refl graph) fun before => ?_
  refine .bind (appends_edit parent fun container => ?_) fun _ => ?_
  · exact container.extends_withChild kind before.size
  · exact .bind (appends_put _) fun _ => appends_pure _

private theorem appends_make (step : Step) : Appends (make step) := by
  cases step with
  | addNamespace parent name => exact .bind (appends_add _ parent name) fun _ => appends_pure _
  | addInterface parent name => exact .bind (appends_add _ parent name) fun _ => appends_pure _
  | addOperation container name =>
      exact .bind (appends_edit container fun found => found.extends_withOperation name)
        fun _ => appends_pure _
  | markService container =>
      exact .bind (appends_edit container Container.extends_markedService) fun _ => appends_pure _
  | markClient container =>
      exact .bind (appends_edit container Container.extends_markedClient) fun _ => appends_pure _

private theorem appends_editIf (wanted : Bool) (id : ContainerId) {change : Container → Container}
    (grows : ∀ container : Container, container.Extends (change container)) :
    Appends (editIf wanted id change) := by
  cases wanted with
  | false => exact appends_pure ()
  | true => exact appends_edit id grows

private theorem appends_forM {α : Type} {action : α → Building Unit}
    (each : ∀ item, Appends (action item))
    (items : List α) : Appends (forM items action) := by
  induction items with
  | nil => exact appends_pure ()
  | cons item items ih =>
      rw [List.forM_cons]
      exact .bind (each item) fun _ => ih

private theorem appends_fillOwn (id : ContainerId) (service client : Bool)
    (operations : List String) :
    Appends (fillOwn id service client operations) :=
  .bind (appends_editIf service id Container.extends_markedService) fun _ =>
    .bind (appends_editIf client id Container.extends_markedClient) fun _ =>
      appends_forM (fun operation =>
        appends_edit id fun found => found.extends_withOperation operation) operations

mutual

private theorem appends_fill (id : ContainerId) : ∀ declaration, Appends (fill id declaration)
  | ⟨_, service, client, operations, namespaces, interfaces⟩ => by
      rw [fill]
      exact .bind (appends_fillOwn id service client operations) fun _ =>
        .bind (appends_fillAll id .nameSpace namespaces) fun _ =>
          appends_fillAll id .interface interfaces

private theorem appends_fillAll (id : ContainerId) (kind : ContainerKind) :
    ∀ declarations, Appends (fillAll id kind declarations)
  | [] => appends_pure ()
  | declaration :: others => by
      rw [fillAll]
      exact .bind (appends_add kind id declaration.name) fun child =>
        .bind (appends_fill child declaration) fun _ => appends_fillAll id kind others

end

/-! ### Actions that are not refused -/

variable {graph : ContainerGraph} {id : ContainerId}

private theorem add_of_lt (kind : ContainerKind) {parent : ContainerId}
    (present : parent < graph.size)
    (name : String) :
    add kind parent name graph = .ok graph.size (graph.addChild kind parent name) := by
  have looked : (get : Building ContainerGraph) graph = .ok graph graph := rfl
  rw [add, bind_of_ok looked, bind_of_ok (edit_of_lt present _)]
  rfl

private theorem add_of_le (kind : ContainerKind) {parent : ContainerId}
    (absent : graph.size ≤ parent)
    (name : String) : add kind parent name graph = .error ⟨parent, graph.size⟩ graph := by
  have looked : (get : Building ContainerGraph) graph = .ok graph graph := rfl
  rw [add, bind_of_ok looked, bind_of_error (edit_of_le absent _)]

private theorem editIf_of_lt (wanted : Bool) (present : id < graph.size)
    (change : Container → Container) :
    editIf wanted id change graph = .ok () (if wanted then graph.update id change else graph) := by
  cases wanted with
  | false => rfl
  | true => exact edit_of_lt present change

private theorem forM_of_lt (present : id < graph.size) (operations : List String) :
    (forM operations fun operation => edit id fun found => found.withOperation operation) graph =
      .ok () (operations.foldl (fun graph operation => graph.addOperation id operation) graph) := by
  induction operations generalizing graph with
  | nil => rfl
  | cons operation operations ih =>
      have still : id < (graph.addOperation id operation).size := by
        rwa [addOperation, size_update]
      rw [List.forM_cons, bind_of_ok (edit_of_lt present _), List.foldl_cons]
      exact ih still

private theorem fillOwn_of_lt (present : id < graph.size) (service client : Bool)
    (operations : List String) :
    fillOwn id service client operations graph =
      .ok () (ContainerDecl.lowerOwn graph id service client operations) := by
  have served := editIf_of_lt service present Container.markedService
  have stillThere := ((appends_editIf service id Container.extends_markedService).of_ok
    served).lt_size present
  have marked := editIf_of_lt client stillThere Container.markedClient
  have again := ((appends_editIf client id Container.extends_markedClient).of_ok
    marked).lt_size stillThere
  rw [fillOwn, bind_of_ok served, bind_of_ok marked]
  exact forM_of_lt again operations

mutual

/-- No call for a declaration is refused, and the calls lay it out. -/
private theorem fill_of_lt :
    ∀ (declaration : ContainerDecl) {graph : ContainerGraph} {id : ContainerId},
    id < graph.size → fill id declaration graph = .ok () (declaration.lowerInto graph id)
  | ⟨_, service, client, operations, namespaces, interfaces⟩, graph, id, present => by
      have own := fillOwn_of_lt present service client operations
      have ownThere := ((appends_fillOwn id service client operations).of_ok own).lt_size present
      have first := fillAll_of_lt .nameSpace namespaces ownThere
      have firstThere := ((appends_fillAll id .nameSpace namespaces).of_ok first).lt_size ownThere
      have second := fillAll_of_lt .interface interfaces firstThere
      rw [fill, bind_of_ok own, bind_of_ok first, second, ContainerDecl.lowerInto]

private theorem fillAll_of_lt (kind : ContainerKind) : ∀ (declarations : List ContainerDecl)
    {graph : ContainerGraph} {id : ContainerId}, id < graph.size →
    fillAll id kind declarations graph = .ok () (ContainerDecl.lowerList graph id kind declarations)
  | [], graph, id, _ => by
      rw [fillAll, ContainerDecl.lowerList]
      rfl
  | declaration :: others, graph, id, present => by
      have added := add_of_lt kind present declaration.name
      have addedThere := ((appends_add kind id declaration.name).of_ok added).lt_size present
      have childThere : graph.size < (graph.addChild kind id declaration.name).size := by
        rw [size_addChild]
        exact Nat.lt_succ_self _
      have filled := fill_of_lt declaration childThere
      -- the container at hand is still there after all that was added below its child
      have filledThere := ((appends_fill graph.size declaration).of_ok filled).lt_size addedThere
      have rest := fillAll_of_lt kind others filledThere
      rw [fillAll, bind_of_ok added, bind_of_ok filled, rest, ContainerDecl.lowerList]

end

end Building

/-! ### Single calls -/

def Step.addition : Step → Option Container
  | .addNamespace parent name => some (.bare name .nameSpace (some parent))
  | .addInterface parent name => some (.bare name .interface (some parent))
  | _ => none

/-- A container after a call that names it: one field differs. An addition has its own list, which
ends with the next free position. -/
def Step.edited (next : ContainerId) (container : Container) : Step → Container
  | .addNamespace _ _ => { container with namespaces := container.namespaces ++ [next] }
  | .addInterface _ _ => { container with interfaces := container.interfaces ++ [next] }
  | .addOperation _ name => { container with operations := container.operations ++ [name] }
  | .markService _ => { container with service := true }
  | .markClient _ => { container with client := true }

/-- What a call changes in a graph: the container that it names, and the next free position if it
adds one. -/
structure ChangedBy (graph : ContainerGraph) (step : Step) (later : ContainerGraph) : Prop where
  size : later.size = graph.size + step.addition.toList.length
  target : later.container? step.target =
    (graph.container? step.target).map fun container => step.edited graph.size container
  next : later.container? graph.size = step.addition
  others : ∀ id, id ≠ step.target → id ≠ graph.size → later.container? id = graph.container? id

private theorem changedBy_update {step : Step} {change : Container → Container}
    (nothingAdded : step.addition = none)
    (edits : ∀ container, step.edited graph.size container = change container) :
    graph.ChangedBy step (graph.update step.target change) where
  size := by rw [size_update, nothingAdded, Option.toList_none, List.length_nil, Nat.add_zero]
  target := by rw [container?_update, if_pos rfl, funext edits]
  next := by
    rw [nothingAdded]
    exact container?_eq_none_iff.mpr (Nat.le_of_eq (size_update graph step.target change))
  others id different _ := by rw [container?_update, if_neg different.symm]

private theorem changedBy_addChild {step : Step} {kind : ContainerKind} {name : String}
    (present : step.target < graph.size)
    (added : step.addition = some (.bare name kind (some step.target)))
    (edits : ∀ container, step.edited graph.size container = container.withChild kind graph.size) :
    graph.ChangedBy step (graph.addChild kind step.target name) where
  size := by rw [size_addChild, added, Option.toList_some, List.length_singleton]
  target := by
    rw [container?_addChild, if_neg (Nat.ne_of_lt present), container?_update, if_pos rfl,
      funext edits]
  next := by rw [container?_addChild, if_pos rfl, added]
  others id different old := by
    rw [container?_addChild, if_neg old, container?_update, if_neg different.symm]

private theorem changedBy_perform {step : Step} (present : step.target < graph.size) :
    graph.ChangedBy step (graph.perform step) := by
  cases step with
  | addNamespace parent name => exact changedBy_addChild present rfl fun _ => rfl
  | addInterface parent name => exact changedBy_addChild present rfl fun _ => rfl
  | addOperation container name => exact changedBy_update rfl fun _ => rfl
  | markService container => exact changedBy_update rfl fun _ => rfl
  | markClient container => exact changedBy_update rfl fun _ => rfl

open Building in
private theorem make_of_lt {step : Step} (present : step.target < graph.size) :
    make step graph = .ok (step.addition.map fun _ => graph.size) (graph.perform step) := by
  cases step with
  | addNamespace parent name => exact bind_of_ok (add_of_lt .nameSpace present name) _
  | addInterface parent name => exact bind_of_ok (add_of_lt .interface present name) _
  | addOperation container name => exact bind_of_ok (edit_of_lt present _) _
  | markService container => exact bind_of_ok (edit_of_lt present _) _
  | markClient container => exact bind_of_ok (edit_of_lt present _) _

open Building in
private theorem make_of_le {step : Step} (absent : graph.size ≤ step.target) :
    make step graph = .error ⟨step.target, graph.size⟩ graph := by
  cases step with
  | addNamespace parent name => exact bind_of_error (add_of_le .nameSpace absent name) _
  | addInterface parent name => exact bind_of_error (add_of_le .interface absent name) _
  | addOperation container name => exact bind_of_error (edit_of_le absent _) _
  | markService container => exact bind_of_error (edit_of_le absent _) _
  | markClient container => exact bind_of_error (edit_of_le absent _) _

private theorem after_make (step : Step) (graph : ContainerGraph) :
    (Building.make step).after graph = (graph.call step).1 := by
  unfold Building.after
  rcases Nat.lt_or_ge step.target graph.size with present | absent
  · rw [make_of_lt present, call_of_lt present]
  · rw [make_of_le absent, call_of_le absent]

private theorem extends_calls (graph : ContainerGraph) (steps : List Step) :
    graph.Extends (graph.calls steps) := by
  induction steps generalizing graph with
  | nil => exact .refl graph
  | cons step steps ih =>
      have growth := Building.appends_make step graph
      rw [after_make] at growth
      exact growth.trans (ih (graph.call step).1)

/-- Calls only add to a graph, however many there are and whether they are refused or not: each
position keeps its container, which is continued. A call that is carried out changes one field of
the container that it names; an addition puts one container at the next free position besides and
gives that position back. A refused call changes nothing. Calls for a declaration go on with the
positions that were given back, and none of them is refused. -/
theorem calls_appendOnly (graph : ContainerGraph) :
    (∀ steps, graph.Extends (graph.calls steps)) ∧
      (∀ step, step.target < graph.size → ∃ later,
        Building.make step graph = .ok (step.addition.map fun _ => graph.size) later ∧
          graph.call step = (later, none) ∧ graph.ChangedBy step later) ∧
      (∀ step, graph.size ≤ step.target →
        Building.make step graph = .error ⟨step.target, graph.size⟩ graph ∧
          graph.call step = (graph, some ⟨step.target, graph.size⟩)) ∧
      ∀ (id : ContainerId) (declaration : ContainerDecl), id < graph.size →
        Building.fill id declaration graph = .ok () (declaration.lowerInto graph id) ∧
          graph.Extends (declaration.lowerInto graph id) := by
  refine ⟨extends_calls graph, fun step present => ?_, fun step absent => ?_,
    fun id declaration present => ?_⟩
  · exact ⟨graph.perform step, make_of_lt present, call_of_lt present, changedBy_perform present⟩
  · exact ⟨make_of_le absent, call_of_le absent⟩
  · have filled := Building.fill_of_lt declaration present
    exact ⟨filled, (Building.appends_fill id declaration).of_ok filled⟩

end ContainerGraph

end SdkClients
