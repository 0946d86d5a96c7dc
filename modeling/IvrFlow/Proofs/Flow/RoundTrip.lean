import IvrFlow.Proofs.Flow.Names
import IvrFlow.Proofs.Step.Loading

/-!
Storing flows. A flow whose paths are reachable is loaded back from its canonical form as its normal
form, unless a name of its steps is used twice: then that is the error (`load_canonical`).
-/

namespace IvrFlow

/-! ### Headers and nodes -/

namespace FlowHeader

@[simp] theorem lossless_form : form.codec.Lossless :=
  Record.lossless_codec (by decide)
    (fun _ => by simp [form, projectKindField, startNodeNameField, versionField, new]) rfl

end FlowHeader

namespace Node

/-- The node with its steps in their normal forms. -/
def normalForm (node : Node) : Node := { node with steps := node.steps.map Step.normalForm }

/-- A stored node is read as the node without its steps. -/
theorem read_canonical (node : Node) :
    form.codec.read node.canonical = .ok { node with steps := [] } := by
  have own : Fields.under (known form.fields) ((writeFields form.fields node).insert
      "steps" (.arr (node.steps.map Step.canonical))) = writeFields form.fields node := by
    rw [Fields.under_insert_of_not _ (by decide), under_known_writeFields]
  refine Record.read_obj_of_under (by decide) own ?_ (by simp [form])
  simp [form, ifaceField, kindField, labelField, nameField, new]

/-- A stored node is loaded with its steps in their normal forms. -/
theorem load_canonical {vocabulary : Vocabulary} (keeps : vocabulary.KeepsWords) {node : Node}
    (sound : ∀ step ∈ node.steps, ∀ path ∈ step.paths, path.Sound) :
    load vocabulary node.canonical = .ok node.normalForm := by
  have steps : Step.loadAll vocabulary (node.steps.map Step.canonical) =
      .ok (node.steps.map Step.normalForm) := by
    rw [Step.loadAll_eq_mapM]
    exact mapM_eq_ok_map fun step member =>
      Step.load_canonical_of_sound keeps step (sound step member)
  have items : (node.canonical.get? "steps").bind Json.items? =
      some (node.steps.map Step.canonical) := by
    have found : node.canonical.get? "steps" = some (.arr (node.steps.map Step.canonical)) :=
      Fields.lookup_insert_self _ _ _
    rw [found]
    rfl
  simp only [load, read_canonical, FlowError.ofFault, items, steps, FlowError.ofStep, ok_bind]
  rfl

@[simp] theorem canonical_normalForm (node : Node) :
    node.normalForm.canonical = node.canonical := by
  have steps : (node.steps.map Step.normalForm).map Step.canonical =
      node.steps.map Step.canonical := by
    rw [List.map_map]
    exact List.map_congr_left fun step _ => step.canonical_normalForm
  rw [canonical, canonical, normalForm, steps]
  rfl

/-- A stored node is read without its steps, which are loaded on their own. -/
theorem steps_of_read {stored : Json} {node : Node} (read : form.codec.read stored = .ok node) :
    node.steps = [] := by
  have frames : ∀ field ∈ form.positions, field.Frames Node.steps := by
    intro field member
    simp only [form, List.mem_cons, List.not_mem_nil, or_false] at member
    rcases member with rfl | rfl | rfl | rfl <;> exact Field.frames_of fun _ _ => rfl
  have framesToo : ∀ field ∈ form.fields, field.Frames Node.steps := by
    intro field member
    refine frames field ?_
    simp only [form, List.mem_cons, List.not_mem_nil, or_false] at member ⊢
    tauto
  exact Record.read_frames framesToo frames read

/-- A node is loaded as what it has besides its steps, and then they one by one. -/
theorem load_eq (vocabulary : Vocabulary) (stored : Json) :
    load vocabulary stored = do
      let node ← FlowError.ofFault (form.codec.read stored)
      let steps ← FlowError.ofStep (stored.storedSteps.mapM (Step.load vocabulary))
      return { node with steps := steps } := by
  rw [load, Json.storedSteps]
  cases read : form.codec.read stored with
  | error fault => rfl
  | ok node =>
    cases (stored.get? "steps").bind Json.items? with
    | some items =>
      simp only [Step.loadAll_eq_mapM]
      rfl
    | none =>
      have noSteps := steps_of_read read
      cases node
      cases noSteps
      rfl

/-- A loaded node has what is read, and the steps that are loaded. -/
theorem exists_own_of_load {vocabulary : Vocabulary} {stored : Json} {node : Node}
    (loaded : load vocabulary stored = .ok node) :
    ∃ own steps, form.codec.read stored = .ok own ∧
      stored.storedSteps.mapM (Step.load vocabulary) = .ok steps ∧
      node = { own with steps := steps } := by
  rw [load_eq] at loaded
  obtain ⟨own, read, rest⟩ := bind_eq_ok_iff.mp loaded
  obtain ⟨steps, loadedSteps, isNode⟩ := bind_eq_ok_iff.mp rest
  exact ⟨own, steps, FlowError.ofFault_eq_ok_iff.mp read,
    FlowError.ofStep_eq_ok_iff.mp loadedSteps, (pure_eq_ok_iff.mp isNode).symm⟩

theorem reachable_of_load {vocabulary : Vocabulary} {stored : Json} {node : Node}
    (loaded : load vocabulary stored = .ok node) :
    ∀ step ∈ node.steps, ∀ path ∈ step.paths, path.Reachable := by
  obtain ⟨_, _, _, loadedSteps, rfl⟩ := exists_own_of_load loaded
  intro step isStep
  obtain ⟨_, _, loadedStep⟩ := exists_of_mapM_eq_ok loadedSteps step isStep
  exact Step.reachable_of_load loadedStep

end Node

namespace Flow

/-! ### Normal forms -/

/-- The normal form of a flow: what is left of it when it is stored and loaded again. -/
def normalForm (flow : Flow) : Flow := { flow with nodes := flow.nodes.map Node.normalForm }

/-- The paths of the steps of a flow, those of prompts at every depth included. -/
def paths (flow : Flow) : List Path := Step.pathsAll flow.topSteps

theorem mem_paths {flow : Flow} {path : Path} :
    path ∈ flow.paths ↔ ∃ node ∈ flow.nodes, ∃ step ∈ node.steps, path ∈ step.paths := by
  simp only [paths, Step.pathsAll_eq_flatMap, topSteps, List.mem_flatMap]
  constructor
  · rintro ⟨step, ⟨node, isNode, isStep⟩, isPath⟩
    exact ⟨node, isNode, step, isStep, isPath⟩
  · rintro ⟨node, isNode, step, isStep, isPath⟩
    exact ⟨step, ⟨node, isNode, isStep⟩, isPath⟩

/-- The steps that are looked at are, one by one, in their normal forms. -/
@[simp] theorem steps_normalForm (flow : Flow) :
    flow.normalForm.steps = flow.steps.map Step.normalForm := by
  have top : flow.normalForm.topSteps = flow.topSteps.map Step.normalForm := by
    simp only [topSteps, normalForm, Node.normalForm, List.flatMap_map, List.map_flatMap]
  simp only [steps, top, List.flatMap_map, List.map_flatMap, List.map_cons, Step.prompts_normalForm]

@[simp] theorem stepNames_normalForm (flow : Flow) :
    flow.normalForm.stepNames = flow.stepNames := by
  rw [stepNames, steps_normalForm]
  exact Step.namesOf_map Step.name_normalForm flow.steps

@[simp] theorem canonical_normalForm (flow : Flow) :
    flow.normalForm.canonical = flow.canonical := by
  have nodes : (flow.nodes.map Node.normalForm).map Node.canonical =
      flow.nodes.map Node.canonical := by
    rw [List.map_map]
    exact List.map_congr_left fun node _ => node.canonical_normalForm
  rw [canonical, canonical, normalForm, nodes]

/-! ### Loading what is stored -/

/-- The canonical form of a flow is a stored flow with the canonical forms of its nodes. -/
theorem write_eq_canonical (flow : Flow) :
    StoredFlow.form.codec.write ⟨flow.header, flow.names.last, flow.nodes.map Node.canonical⟩ =
      flow.canonical := by
  have items : (flow.nodes.map Node.canonical).map Codec.any.write =
      flow.nodes.map Node.canonical := List.map_id _
  show Json.obj [("header", FlowHeader.form.codec.write flow.header),
    ("lastStepId", Codec.natural.write flow.names.last),
    ("nodes", .arr ((flow.nodes.map Node.canonical).map Codec.any.write))] = flow.canonical
  rw [items]
  rfl

theorem read_canonical (flow : Flow) :
    StoredFlow.form.codec.read flow.canonical =
      .ok ⟨flow.header, flow.names.last, flow.nodes.map Node.canonical⟩ := by
  have lossless : StoredFlow.form.codec.Lossless := by
    refine Record.lossless_codec (by decide) (fun stored => ?_) rfl
    simp [StoredFlow.form, FlowHeader.new]
  rw [← write_eq_canonical, lossless]

/-- **What becomes of a stored flow.** All of it is loaded back, in its normal form; only the check
of the names can refuse it. -/
theorem load_canonical {vocabulary : Vocabulary} (keeps : vocabulary.KeepsWords) {flow : Flow}
    (reachable : ∀ path ∈ flow.paths, path.Reachable) :
    load vocabulary flow.canonical =
      match firstRepeated [] flow.stepNames with
      | some name => .error (.duplicateStepName name)
      | none => .ok flow.normalForm := by
  have nodes : (flow.nodes.map Node.canonical).mapM (Node.load vocabulary) =
      .ok (flow.nodes.map Node.normalForm) := by
    refine mapM_eq_ok_map fun node isNode => Node.load_canonical keeps ?_
    intro step isStep path isPath
    exact (reachable path (mem_paths.mpr ⟨node, isNode, step, isStep, isPath⟩)).sound
  rw [load, read_canonical]
  simp only [FlowError.ofFault, nodes, ok_bind]
  have names : (Flow.mk flow.header (flow.nodes.map Node.normalForm) flow.names).stepNames =
      flow.stepNames := flow.stepNames_normalForm
  rw [names]
  rfl

/-- All paths of a loaded flow are reachable. -/
theorem reachable_of_load {vocabulary : Vocabulary} {stored : Json} {flow : Flow}
    (loaded : load vocabulary stored = .ok flow) : ∀ path ∈ flow.paths, path.Reachable := by
  obtain ⟨raw, _, nodes, _⟩ := load_cases loaded
  intro path isPath
  obtain ⟨node, isNode, step, isStep, inStep⟩ := mem_paths.mp isPath
  obtain ⟨item, _, loadedNode⟩ := exists_of_mapM_eq_ok nodes node isNode
  exact Node.reachable_of_load loadedNode step isStep path inStep

theorem firstRepeated_stepNames {flow : Flow} (distinct : flow.stepNames.Nodup) :
    firstRepeated [] flow.stepNames = none :=
  (firstRepeated_eq_none_iff [] flow.stepNames).mpr ⟨distinct, fun _ _ => List.not_mem_nil⟩

/-- **A flow with distinct names survives storing up to its normal form**, and that has the same
canonical form again. Every loaded flow is such a flow. -/
theorem load_canonical_of_distinct {vocabulary : Vocabulary} (keeps : vocabulary.KeepsWords) :
    (∀ flow : Flow, flow.stepNames.Nodup → (∀ path ∈ flow.paths, path.Reachable) →
        load vocabulary flow.canonical = .ok flow.normalForm ∧
          flow.normalForm.canonical = flow.canonical) ∧
      ∀ stored flow, load vocabulary stored = .ok flow →
        flow.stepNames.Nodup ∧ ∀ path ∈ flow.paths, path.Reachable := by
  constructor
  · intro flow distinct reachable
    refine ⟨?_, flow.canonical_normalForm⟩
    rw [load_canonical keeps reachable, firstRepeated_stepNames distinct]
  · intro stored flow loaded
    exact ⟨nodup_stepNames_of_load loaded, reachable_of_load loaded⟩

/-- A flow of one node, with the menu that still holds free input. -/
def heldFlow : Flow :=
  let main : Node := ⟨"main", "", "module", .null, [Step.heldMenu, .new .hangUp ""]⟩
  ⟨⟨"voice", "2.0", some "main"⟩, [main], ⟨7⟩⟩

theorem load_canonical_heldFlow :
    heldFlow.stepNames = ["ask", "look"] ∧
      load .standard heldFlow.canonical = .ok heldFlow.normalForm ∧
      heldFlow.normalForm.canonical = heldFlow.canonical := by
  have reachable : ∀ path ∈ heldFlow.paths, path.Reachable := by
    intro path isPath
    rcases List.mem_singleton.mp isPath with rfl
    exact Step.reachable_enteredPath
  have names : heldFlow.stepNames = ["ask", "look"] := by decide
  have distinct : heldFlow.stepNames.Nodup := by
    rw [names]
    decide
  have survives := (load_canonical_of_distinct Vocabulary.keepsWords_standard).1
  exact ⟨names, survives heldFlow distinct reachable⟩

end Flow

end IvrFlow
