import IvrFlow.Proofs.Flow.Stored
import IvrFlow.Proofs.Step.Lists

/-!
Stored lists of a wrong type, in whole flows. The steps of a node are listed as the parts of a step
are: what stands in the place of the list and is no array counts as null, and the node has no steps
(`wrong_lists_count_as_null`).
-/

namespace IvrFlow

namespace Node

variable {vocabulary : Vocabulary}

/-- One stored node made into another by putting null in the place of lists that are no arrays: its
own list of steps, or lists of the steps stored in it, at any depth. -/
inductive Nulled (vocabulary : Vocabulary) : Json → Json → Prop where
  | refl (stored : Json) : Nulled vocabulary stored stored
  | steps {entries : Fields} {value : Json} :
      entries.lookup "steps" = some value → value.items? = none →
      Nulled vocabulary (.obj entries) (.obj (entries.insert "steps" .null))
  | step {entries : Fields} {before after : List Json} {item other : Json} :
      entries.lookup "steps" = some (.arr (before ++ item :: after)) →
      Step.Rewritten vocabulary (Step.Nulled vocabulary) item other →
      Nulled vocabulary (.obj entries)
        (.obj (entries.insert "steps" (.arr (before ++ other :: after))))
  | trans {stored middle other : Json} : Nulled vocabulary stored middle →
      Nulled vocabulary middle other → Nulled vocabulary stored other

/-- Other steps do not matter for what a node has besides its steps. -/
theorem read_insert (value : Json) (entries : Fields) :
    form.codec.read (.obj (entries.insert "steps" value)) = form.codec.read (.obj entries) :=
  Record.readObject_insert_of_unknown rfl rfl value entries

theorem load_eq_of_nulled {stored other : Json} (nulled : Nulled vocabulary stored other) :
    load vocabulary stored = load vocabulary other := by
  induction nulled with
  | refl stored => rfl
  | @steps entries value found wrong =>
    have noSteps : (Json.obj entries).storedSteps = [] := by
      rw [Json.storedSteps, Json.get?, found, Option.bind_some, wrong]
      rfl
    rw [load_eq, load_eq, read_insert, Step.storedSteps_insert, noSteps]
    rfl
  | @step entries before after item other found rewritten =>
    have items : (Json.obj entries).storedSteps = before ++ item :: after :=
      Json.storedSteps_eq found
    have same := Step.load_eq_of_rewritten Step.load_eq_of_nulled rewritten
    rw [load_eq, load_eq, read_insert, Step.storedSteps_insert, items]
    simp only [Json.items?, Option.getD_some, List.mapM_append, List.mapM_cons, same]
  | trans _ _ first second => exact first.trans second

theorem steps_of_load {stored : Json} {node : Node}
    (noArray : (stored.get? "steps").bind Json.items? = none)
    (loaded : load vocabulary stored = .ok node) : node.steps = [] := by
  obtain ⟨_, _, _, loadedSteps, rfl⟩ := exists_own_of_load loaded
  rw [Json.storedSteps, noArray] at loadedSteps
  exact (pure_eq_ok_iff.mp loadedSteps).symm

end Node

namespace Flow

/-- One stored flow made into another by putting null in the place of lists that are no arrays, in
any of its nodes. -/
def Nulled (vocabulary : Vocabulary) (stored other : Json) : Prop :=
  ∃ raw nodes, StoredFlow.form.codec.read stored = .ok raw ∧
    StoredFlow.form.codec.read other = .ok { raw with nodes := nodes } ∧
    List.Forall₂ (Node.Nulled vocabulary) raw.nodes nodes

theorem load_eq_of_nulled {vocabulary : Vocabulary} {stored other : Json}
    (nulled : Nulled vocabulary stored other) : load vocabulary stored = load vocabulary other := by
  obtain ⟨raw, nodes, read, readOther, each⟩ := nulled
  have same : raw.nodes.mapM (Node.load vocabulary) = nodes.mapM (Node.load vocabulary) :=
    mapM_eq_of_forall₂ (each.imp fun _ _ => Node.load_eq_of_nulled)
  rw [load, load, read, readOther]
  simp only [FlowError.ofFault, ok_bind, same]

end Flow

/-! ### Lists of a wrong type -/

namespace Vocabulary

/-- **A list of a wrong type counts as null.** Wherever steps, targets or assignments are to be
listed, null can stand in the place of anything that is no array: the outcome of loading is the same.
A step or flow that is loaded then has nothing in the place of that list. -/
theorem wrong_lists_count_as_null (vocabulary : Vocabulary) :
    (∀ stored other, Step.Rewritten vocabulary (Step.Nulled vocabulary) stored other →
        Step.load vocabulary stored = Step.load vocabulary other) ∧
      (∀ stored step, Step.load vocabulary stored = .ok step →
        ∀ part, Step.Stores vocabulary stored part → Step.Unlisted vocabulary part →
          ∃ inner ∈ step.within, Step.load vocabulary part = .ok inner ∧ inner.Bare) ∧
      (∀ stored other, Flow.Nulled vocabulary stored other →
        Flow.load vocabulary stored = Flow.load vocabulary other) ∧
      ∀ stored flow, Flow.load vocabulary stored = .ok flow →
        (∀ part, Flow.Stores vocabulary stored part → Step.Unlisted vocabulary part →
          ∃ step ∈ flow.topSteps, ∃ inner ∈ step.within,
            Step.load vocabulary part = .ok inner ∧ inner.Bare) ∧
        ∀ raw, StoredFlow.form.codec.read stored = .ok raw →
          ∀ item ∈ raw.nodes, (item.get? "steps").bind Json.items? = none →
            ∃ node ∈ flow.nodes, Node.load vocabulary item = .ok node ∧ node.steps = [] := by
  refine ⟨?_, ?_, fun _ _ => Flow.load_eq_of_nulled, ?_⟩
  · intro stored other
    exact Step.load_eq_of_rewritten Step.load_eq_of_nulled
  · intro stored step loaded part isPart unlisted
    obtain ⟨inner, isInner, loadedPart⟩ := Step.exists_within_of_load isPart loaded
    exact ⟨inner, isInner, loadedPart, Step.bare_of_load unlisted loadedPart⟩
  · intro stored flow loaded
    constructor
    · intro part isPart unlisted
      obtain ⟨step, isStep, inner, isInner, loadedPart⟩ := Flow.exists_within_of_load isPart loaded
      exact ⟨step, isStep, inner, isInner, loadedPart, Step.bare_of_load unlisted loadedPart⟩
    · intro raw read item isItem noArray
      obtain ⟨node, isNode, loadedNode⟩ := Flow.exists_node_of_load read isItem loaded
      exact ⟨node, isNode, loadedNode, Node.steps_of_load noArray loadedNode⟩

/-- A stored menu with something in the place of its list of prompts. -/
def storedMenu (prompts : Json) : Json :=
  .obj [("kind", .str "gather"), ("name", .str "ask"), ("steps", prompts)]

/-- A stored node with something in the place of its list of steps. -/
def storedNode (name : String) (steps : Json) : Json := .obj [("name", .str name), ("steps", steps)]

/-- A step that stands in the place of a list of steps. -/
def loneStep : Json := .obj [("kind", .str "say"), ("name", .str "look")]

/-- A stored flow with the menu in one node, and another node. -/
def storedFlow (prompts steps : Json) : Json :=
  .obj [("nodes", .arr [storedNode "main" (.arr [storedMenu prompts]), storedNode "end" steps])]

/-- The menu without prompts. -/
def bareMenu : Step := .gather (.new .gather "ask") Gather.new.normalize []

/-- The flow with the menu without prompts, and a node without steps. -/
def bareFlow : Flow :=
  ⟨.new, [{ Node.new "main" "" with steps := [bareMenu] }, .new "end" ""], ⟨0⟩⟩

theorem wrong_lists_count_as_null_lone :
    (Step.load standard (storedMenu loneStep) = .ok bareMenu ∧
      Step.load standard (storedMenu loneStep) = Step.load standard (storedMenu .null) ∧
      ∃ inner ∈ bareMenu.within,
        Step.load standard (storedMenu loneStep) = .ok inner ∧ inner.Bare) ∧
    Flow.load standard (storedFlow loneStep loneStep) = .ok bareFlow ∧
      Flow.load standard (storedFlow loneStep loneStep) =
        Flow.load standard (storedFlow .null .null) ∧
      (∃ step ∈ bareFlow.topSteps, ∃ inner ∈ step.within,
        Step.load standard (storedMenu loneStep) = .ok inner ∧ inner.Bare) ∧
      ∃ node ∈ bareFlow.nodes, Node.load standard (storedNode "end" loneStep) = .ok node ∧
        node.steps = [] := by
  have loadedMenu : Step.load standard (storedMenu loneStep) = .ok bareMenu := rfl
  have loadedFlow : Flow.load standard (storedFlow loneStep loneStep) = .ok bareFlow := rfl
  have isGather : standard.storedKind (storedMenu loneStep) = .ok .gather := rfl
  have unlisted : Step.Unlisted standard (storedMenu loneStep) :=
    ⟨.gather, isGather, List.forall_mem_singleton.mpr rfl⟩
  have nulledMenu : Step.Nulled standard (storedMenu loneStep) (storedMenu .null) :=
    .intro isGather (List.mem_singleton_self "steps") rfl rfl
  have listed : List.lookup "steps" [("name", .str "main"), ("steps", .arr [storedMenu loneStep])] =
      some (Json.arr ([] ++ storedMenu loneStep :: [])) := rfl
  have nulledMain : Node.Nulled standard (storedNode "main" (.arr [storedMenu loneStep]))
      (storedNode "main" (.arr [storedMenu .null])) := .step listed (.here nulledMenu)
  have nulledEnd : Node.Nulled standard (storedNode "end" loneStep) (storedNode "end" .null) :=
    .steps rfl rfl
  have readFlow (prompts steps : Json) :
      StoredFlow.form.codec.read (storedFlow prompts steps) = .ok ⟨.new, 0,
        [storedNode "main" (.arr [storedMenu prompts]), storedNode "end" steps]⟩ := rfl
  have nulledFlow : Flow.Nulled standard (storedFlow loneStep loneStep) (storedFlow .null .null) :=
    ⟨_, _, readFlow loneStep loneStep, readFlow .null .null, .cons nulledMain (.cons nulledEnd .nil)⟩
  have inFlow : Flow.Stores standard (storedFlow loneStep loneStep) (storedMenu loneStep) :=
    ⟨_, readFlow loneStep loneStep, _, List.mem_cons_self, _, List.mem_cons_self, .self _⟩
  obtain ⟨sameStep, bareStep, sameFlow, bare⟩ := wrong_lists_count_as_null standard
  obtain ⟨bareInFlow, bareNode⟩ := bare _ _ loadedFlow
  exact ⟨⟨loadedMenu, sameStep _ _ (.here nulledMenu), bareStep _ _ loadedMenu _ (.self _) unlisted⟩,
    loadedFlow, sameFlow _ _ nulledFlow, bareInFlow _ inFlow unlisted,
    bareNode _ (readFlow loneStep loneStep) _ (List.mem_cons_of_mem _ List.mem_cons_self) rfl⟩

end Vocabulary

end IvrFlow
