import IvrFlow.Proofs.Flow.RoundTrip
import IvrFlow.Proofs.Step.Elements

/-!
Loading element by element. A stored flow is loaded node by node, a node step by step, a gather step
prompt by prompt, and a call assignment by assignment: all of them or none. What is loaded holds
what each element is loaded as on its own, in the stored order, and of the errors of the elements
the first one in the order of the document is that of the whole (`elements_loaded_alone`).
-/

namespace IvrFlow

/-! ### Outcomes without values -/

section Checked

variable {α β ε : Type} {error : ε}

/-- Whether something is there, or the error for which it is not. -/
def checked (outcome : Except ε α) : Except ε Unit := outcome.map fun _ => ()

theorem checked_eq_error_iff {outcome : Except ε α} :
    checked outcome = .error error ↔ outcome = .error error := by
  cases outcome with
  | error other => simp only [checked, Except.map, Except.error.injEq]
  | ok value => simp only [checked, Except.map, reduceCtorEq]

/-- Where it does not matter what the next outcome is made from, one is checked after the other. -/
theorem checked_bind {first : Except ε α} {next : α → Except ε β} {rest : Except ε Unit}
    (same : ∀ value, checked (next value) = rest) :
    checked (first >>= next) = checked first >>= fun _ => rest := by
  cases first with
  | error error => rfl
  | ok value => exact same value

/-- A list is checked item by item. -/
theorem checked_mapM (read : α → Except ε β) (items : List α) :
    checked (items.mapM read) = forM items fun item => checked (read item) := by
  induction items with
  | nil => rfl
  | cons item rest ih =>
    rw [List.mapM_cons, List.forM_cons, ← ih]
    refine checked_bind fun value => ?_
    cases rest.mapM read <;> rfl

theorem forM_flatMap (parts : α → List β) (check : β → Except ε Unit) (items : List α) :
    forM (items.flatMap parts) check = forM items fun item => forM (parts item) check := by
  induction items with
  | nil => rfl
  | cons item rest ih => rw [List.flatMap_cons, List.forM_append, ih, List.forM_cons]

/-- The error of outcomes that are checked one by one is that of the first that is one. -/
theorem forM_eq_error_iff {outcomes : List (Except ε Unit)} :
    (forM outcomes id : Except ε Unit) = .error error ↔ FirstFails id outcomes error := by
  have each : checked (outcomes.mapM id) = forM outcomes id := by
    rw [checked_mapM]
    refine congrArg (forM outcomes ·) (funext fun outcome => ?_)
    cases outcome <;> rfl
  rw [← each, checked_eq_error_iff, mapM_eq_error_iff]

end Checked

theorem FlowError.ofStep_mapM {α β : Type} (load : α → Except StepError β) (items : List α) :
    ofStep (items.mapM load) = items.mapM fun item => ofStep (load item) := by
  induction items with
  | nil => rfl
  | cons item rest ih =>
    rw [List.mapM_cons, List.mapM_cons, ← ih]
    cases load item with
    | error error => rfl
    | ok value => cases rest.mapM load <;> rfl

/-! ### Nodes -/

namespace Node

variable {vocabulary : Vocabulary}

/-- The outcomes of loading what is stored for a node, in the order of the document: of what it has
besides its steps, and of each of its steps on its own. -/
def outcomes (vocabulary : Vocabulary) (stored : Json) : List (Except FlowError Unit) :=
  checked (FlowError.ofFault (form.codec.read stored)) ::
    stored.storedSteps.map fun item => checked (FlowError.ofStep (Step.load vocabulary item))

theorem checked_load (stored : Json) :
    checked (load vocabulary stored) = forM (outcomes vocabulary stored) id := by
  rw [load_eq, outcomes, List.forM_cons, List.forM_map, FlowError.ofStep_mapM]
  refine checked_bind fun own => ?_
  refine Eq.trans ?_ (checked_mapM _ _)
  cases stored.storedSteps.mapM fun item => FlowError.ofStep (Step.load vocabulary item) <;> rfl

/-- A node has what is stored besides its steps, and each step is loaded on its own. -/
def LoadedAlone (vocabulary : Vocabulary) (stored : Json) (node : Node) : Prop :=
  form.codec.read stored = .ok { node with steps := [] } ∧
    List.Forall₂ (fun item step => Step.load vocabulary item = .ok step) stored.storedSteps
      node.steps

theorem load_eq_ok_iff {stored : Json} {node : Node} :
    load vocabulary stored = .ok node ↔ LoadedAlone vocabulary stored node := by
  constructor
  · intro loaded
    obtain ⟨own, steps, read, loadedSteps, rfl⟩ := exists_own_of_load loaded
    refine ⟨?_, mapM_eq_ok_iff.mp loadedSteps⟩
    rw [read, ← steps_of_read read]
  · rintro ⟨read, each⟩
    rw [load_eq, read, mapM_eq_ok_iff.mpr each]
    rfl

/-- A node is stored with its steps in canonical form, each as it is loaded on its own. -/
def StoredAlone (vocabulary : Vocabulary) (stored canonical : Json) : Prop :=
  ∃ steps, canonical.get? "steps" = some (.arr steps) ∧
    List.Forall₂ (fun item step => ∃ alone, Step.load vocabulary item = .ok alone ∧
      step = alone.canonical) stored.storedSteps steps

theorem storedAlone_canonical {stored : Json} {node : Node}
    (loaded : LoadedAlone vocabulary stored node) :
    StoredAlone vocabulary stored node.canonical := by
  refine ⟨node.steps.map Step.canonical, Fields.lookup_insert_self "steps" _ _, ?_⟩
  rw [List.forall₂_map_right_iff]
  exact loaded.2.imp fun item step loadedStep => ⟨step, loadedStep, rfl⟩

end Node

/-! ### Flows -/

namespace Flow

variable {vocabulary : Vocabulary}

/-- How a flow is loaded whose header, counter and list of nodes are read: its nodes one by one, and
then the names are checked. -/
structure NodesAlone (vocabulary : Vocabulary) (stored : Json) (raw : StoredFlow) : Prop where
  loaded : ∀ flow, load vocabulary stored = .ok flow ↔
    flow.header = raw.header ∧ flow.names = ⟨raw.lastStepId⟩ ∧
      List.Forall₂ (Node.LoadedAlone vocabulary) raw.nodes flow.nodes ∧ flow.stepNames.Nodup
  canonical : ∀ flow, load vocabulary stored = .ok flow →
    ∃ nodes, flow.canonical.get? "nodes" = some (.arr nodes) ∧
      List.Forall₂ (Node.StoredAlone vocabulary) raw.nodes nodes
  failed : ∀ error, load vocabulary stored = .error error ↔
    FirstFails id (raw.nodes.flatMap (Node.outcomes vocabulary)) error ∨
      ∃ nodes name, List.Forall₂ (Node.LoadedAlone vocabulary) raw.nodes nodes ∧
        RepeatsFirst name (stepNames ⟨raw.header, nodes, ⟨raw.lastStepId⟩⟩) ∧
        error = .duplicateStepName name

theorem checked_loadNodes (nodes : List Json) :
    checked (nodes.mapM (Node.load vocabulary)) =
      forM (nodes.flatMap (Node.outcomes vocabulary)) id := by
  rw [checked_mapM, forM_flatMap]
  exact congrArg (forM nodes ·) (funext Node.checked_load)

theorem forall₂_loadedAlone_iff {stored : List Json} {nodes : List Node} :
    stored.mapM (Node.load vocabulary) = .ok nodes ↔
      List.Forall₂ (Node.LoadedAlone vocabulary) stored nodes := by
  rw [mapM_eq_ok_iff]
  simp only [Node.load_eq_ok_iff]

/-- The last step of loading: a flow is given if its names are distinct. -/
def checkNames (flow : Flow) : Except FlowError Flow :=
  match firstRepeated [] flow.stepNames with
  | some name => .error (.duplicateStepName name)
  | none => .ok flow

theorem checkNames_eq_ok_iff {flow result : Flow} :
    flow.checkNames = .ok result ↔ flow.stepNames.Nodup ∧ flow = result := by
  have unrepeated : firstRepeated [] flow.stepNames = none ↔ flow.stepNames.Nodup := by
    simp only [firstRepeated_eq_none_iff, List.not_mem_nil, not_false_eq_true, implies_true,
      and_true]
  rw [← unrepeated, checkNames]
  cases firstRepeated [] flow.stepNames with
  | none => simp only [Except.ok.injEq, true_and]
  | some name => simp only [reduceCtorEq, false_and]

theorem checkNames_eq_error_iff {flow : Flow} {error : FlowError} :
    flow.checkNames = .error error ↔
      ∃ name, RepeatsFirst name flow.stepNames ∧ error = .duplicateStepName name := by
  simp only [← firstRepeated_eq_some_iff_repeatsFirst, checkNames]
  cases firstRepeated [] flow.stepNames with
  | none => simp only [reduceCtorEq, false_and, exists_false]
  | some name => simp only [Except.error.injEq, Option.some.injEq, exists_eq_left', eq_comm]

theorem nodesAlone {stored : Json} {raw : StoredFlow}
    (read : StoredFlow.form.codec.read stored = .ok raw) : NodesAlone vocabulary stored raw := by
  have outcome : load vocabulary stored = raw.nodes.mapM (Node.load vocabulary) >>= fun nodes =>
      checkNames ⟨raw.header, nodes, ⟨raw.lastStepId⟩⟩ := by
    rw [load, read]
    rfl
  have loaded : ∀ flow, load vocabulary stored = .ok flow ↔
      flow.header = raw.header ∧ flow.names = ⟨raw.lastStepId⟩ ∧
        List.Forall₂ (Node.LoadedAlone vocabulary) raw.nodes flow.nodes ∧
        flow.stepNames.Nodup := by
    intro flow
    simp only [outcome, bind_eq_ok_iff, forall₂_loadedAlone_iff, checkNames_eq_ok_iff]
    constructor
    · rintro ⟨nodes, each, distinct, rfl⟩
      exact ⟨rfl, rfl, each, distinct⟩
    · obtain ⟨header, nodes, names⟩ := flow
      rintro ⟨rfl, rfl, each, distinct⟩
      exact ⟨nodes, each, distinct, rfl⟩
  refine ⟨loaded, ?_, ?_⟩
  · intro flow isLoaded
    obtain ⟨_, _, each, _⟩ := (loaded flow).mp isLoaded
    refine ⟨flow.nodes.map Node.canonical, rfl, ?_⟩
    rw [List.forall₂_map_right_iff]
    exact each.imp fun item node => Node.storedAlone_canonical
  · intro error
    rw [outcome, bind_eq_error_iff, ← checked_eq_error_iff, checked_loadNodes, forM_eq_error_iff]
    refine or_congr_right ?_
    simp only [forall₂_loadedAlone_iff, checkNames_eq_error_iff, exists_and_left]

end Flow

namespace Vocabulary

/-- **Elements are loaded alone.** Flows, gather steps and calls are loaded element by element, with
any vocabulary: they hold what their elements are loaded as, or fail with the error of the first
element that fails. -/
theorem elements_loaded_alone (vocabulary : Vocabulary) :
    (∀ stored raw, StoredFlow.form.codec.read stored = .ok raw →
        Flow.NodesAlone vocabulary stored raw) ∧
      (∀ entries, vocabulary.storedKind (.obj entries) = .ok .gather →
        Step.PromptsAlone vocabulary entries) ∧
      ∀ entries, vocabulary.storedKind (.obj entries) = .ok .externalService →
        Step.AssignmentsAlone vocabulary entries :=
  ⟨fun _ _ => Flow.nodesAlone, fun _ => Step.promptsAlone, fun _ => Step.assignmentsAlone⟩

/-- A stored say step. -/
def storedSay (name : String) : Json := .obj [("kind", .str "say"), ("name", .str name)]

/-- A stored flow with a step in each of two nodes. -/
def storedPair (first second : Json) : Json :=
  .obj [("nodes", .arr [.obj [("name", .str "main"), ("steps", .arr [first])],
    .obj [("name", .str "end"), ("steps", .arr [second])]])]

/-- The flow with a say step in each of two nodes. -/
def sayPair (first second : String) : Flow :=
  ⟨.new, [{ Node.new "main" "" with steps := [.new .say first] },
    { Node.new "end" "" with steps := [.new .say second] }], ⟨0⟩⟩

/-- Two steps are loaded as they are alone, unless the second is none, or has the name of the first.
A prompt and an assignment that are none fail alike. -/
theorem elements_loaded_alone_pair :
    Flow.load standard (storedPair (storedSay "a") (storedSay "b")) = .ok (sayPair "a" "b") ∧
      Flow.load standard (storedPair (storedSay "a") .null) = .error (.step .missingKind) ∧
      Flow.load standard (storedPair (storedSay "a") (storedSay "a")) =
        .error (.duplicateStepName "a") ∧
      Step.load standard (.obj [("kind", .str "gather"), ("steps", .arr [storedSay "a", .null])]) =
        .error .missingKind ∧
      Step.load standard (.obj [("assignments", .arr [.obj [], .null]),
          ("kind", .str "externalService")]) =
        .error (.malformed .assignment (.wrongType .null "struct Assignment")) := by
  have read (first second : Json) : StoredFlow.form.codec.read (storedPair first second) =
      .ok ⟨.new, 0, [.obj [("name", .str "main"), ("steps", .arr [first])],
        .obj [("name", .str "end"), ("steps", .arr [second])]]⟩ := rfl
  obtain ⟨flows, gathers, calls⟩ := elements_loaded_alone standard
  have each (first second : String) : List.Forall₂ (Node.LoadedAlone standard)
      [.obj [("name", .str "main"), ("steps", .arr [storedSay first])],
        .obj [("name", .str "end"), ("steps", .arr [storedSay second])]]
      (sayPair first second).nodes :=
    .cons ⟨rfl, .cons rfl .nil⟩ (.cons ⟨rfl, .cons rfl .nil⟩ .nil)
  refine ⟨?_, ?_, ?_, ?_, ?_⟩
  · exact ((flows _ _ (read _ _)).loaded _).mpr ⟨rfl, rfl, each "a" "b", by decide⟩
  · refine ((flows _ _ (read _ _)).failed _).mpr (Or.inl ?_)
    exact ⟨[.ok (), .ok (), .ok ()], .error (.step .missingKind), [], rfl, by simp, rfl⟩
  · refine ((flows _ _ (read _ _)).failed _).mpr (Or.inr ⟨_, "a", each "a" "a", ?_, rfl⟩)
    exact ⟨["a"], [], rfl, List.nodup_singleton "a", List.mem_singleton_self "a"⟩
  · refine ((gathers _ rfl).failed _).mpr (Or.inr ⟨⟨_, rfl⟩, ?_⟩)
    exact ⟨[storedSay "a"], .null, [], rfl, List.forall_mem_singleton.mpr ⟨_, rfl⟩, rfl⟩
  · refine ((calls _ rfl).failed _).mpr (Or.inr ⟨⟨_, rfl⟩, Or.inl ?_⟩)
    exact ⟨[.obj []], .null, [], rfl, List.forall_mem_singleton.mpr ⟨_, rfl⟩, rfl⟩

end Vocabulary

end IvrFlow
