import IvrFlow.Proofs.Flow.RoundTrip
import IvrFlow.Proofs.Step.Prompts

/-!
Steps that are stored in stored flows. A stored node holds stored steps, and these hold others, at
every depth (`Stores`). Each is loaded on its own, and what it is loaded as stands in the flow that is
loaded (`exists_within_of_load`).
-/

namespace IvrFlow

namespace Node

/-- Every stored step of a loaded node is loaded as one of its steps. -/
theorem exists_step_of_load {vocabulary : Vocabulary} {stored item : Json} {node : Node}
    (isStored : item ∈ stored.storedSteps) (loaded : load vocabulary stored = .ok node) :
    ∃ step ∈ node.steps, Step.load vocabulary item = .ok step := by
  obtain ⟨_, _, _, loadedSteps, rfl⟩ := exists_own_of_load loaded
  exact exists_value_of_mapM_eq_ok loadedSteps item isStored

end Node

/-- What a step stored in a step is loaded as stands within what the step is loaded as. -/
theorem Step.exists_within_of_load {vocabulary : Vocabulary} {stored part : Json} {step : Step}
    (isPart : Stores vocabulary stored part) (loaded : load vocabulary stored = .ok step) :
    ∃ inner ∈ step.within, load vocabulary part = .ok inner := by
  induction isPart generalizing step with
  | self stored =>
    refine ⟨step, ?_, loaded⟩
    rw [within_eq_cons]
    exact List.mem_cons_self
  | prompt isGather isStored _ ih =>
    obtain ⟨prompt, isPrompt, loadedItem⟩ := exists_prompt_of_load isGather isStored loaded
    obtain ⟨inner, isInner, loadedPart⟩ := ih loadedItem
    refine ⟨inner, ?_, loadedPart⟩
    rw [within_eq_cons, withinAll_eq_flatMap]
    exact List.mem_cons_of_mem _ (List.mem_flatMap_of_mem isPrompt isInner)

namespace Flow

/-- A step that is stored in a stored flow, in one of its nodes at any depth. -/
def Stores (vocabulary : Vocabulary) (stored part : Json) : Prop :=
  ∃ raw, StoredFlow.form.codec.read stored = .ok raw ∧
    ∃ node ∈ raw.nodes, ∃ item ∈ node.storedSteps, Step.Stores vocabulary item part

/-- Every stored node of a loaded flow is loaded as one of its nodes. -/
theorem exists_node_of_load {vocabulary : Vocabulary} {stored item : Json} {flow : Flow}
    {raw : StoredFlow} (read : StoredFlow.form.codec.read stored = .ok raw)
    (isItem : item ∈ raw.nodes) (loaded : load vocabulary stored = .ok flow) :
    ∃ node ∈ flow.nodes, Node.load vocabulary item = .ok node := by
  obtain ⟨others, readToo, loadedNodes, _⟩ := load_cases loaded
  cases read.symm.trans readToo
  exact exists_value_of_mapM_eq_ok loadedNodes item isItem

/-- What a step stored in a flow is loaded as stands in the flow that is loaded. -/
theorem exists_within_of_load {vocabulary : Vocabulary} {stored part : Json} {flow : Flow}
    (isPart : Stores vocabulary stored part) (loaded : load vocabulary stored = .ok flow) :
    ∃ step ∈ flow.topSteps, ∃ inner ∈ step.within, Step.load vocabulary part = .ok inner := by
  obtain ⟨raw, read, item, isItem, first, isFirst, inFirst⟩ := isPart
  obtain ⟨node, isNode, loadedNode⟩ := exists_node_of_load read isItem loaded
  obtain ⟨step, isStep, loadedStep⟩ := Node.exists_step_of_load isFirst loadedNode
  refine ⟨step, List.mem_flatMap_of_mem isNode isStep, ?_⟩
  exact Step.exists_within_of_load inFirst loadedStep

end Flow

end IvrFlow
