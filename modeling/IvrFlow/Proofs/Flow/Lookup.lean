import IvrFlow.Proofs.Flow.Names

/-!
Looking steps up by their names. To be changed or taken out, a step is looked for among the steps of
the nodes; to be shown, among those and their prompts. A spot is a place among the steps of the
nodes, and at the first one with the name stands all that is changed (`Spot.Holds`). While names are
distinct, every lookup that finds a step of a node finds it at that spot (`lookups_meet`), and a step
that has just been added is taken out again without a trace (`removeStep_addStep`).
-/

namespace IvrFlow.Flow

/-! ### Nodes without a step of some name -/

section Unnamed

variable {name : String} {nodes rest : List Node} {steps others : List Step}

theorem find?_append_of_unnamed (unnamed : ∀ step ∈ steps, step.name ≠ name) :
    (steps ++ others).find? (·.name == name) = others.find? (·.name == name) := by
  have none : steps.find? (·.name == name) = none :=
    List.find?_eq_none.mpr fun step isStep => by simpa using unnamed step isStep
  rw [List.find?_append, none, Option.none_or]

theorem updateFirst_append_of_unnamed (change : Step → Step)
    (unnamed : ∀ step ∈ steps, step.name ≠ name) :
    updateFirst name change (steps ++ others) = steps ++ updateFirst name change others := by
  induction steps with
  | nil => rfl
  | cons step rest ih =>
    obtain ⟨isOther, restUnnamed⟩ := List.forall_mem_cons.mp unnamed
    rw [List.cons_append, updateFirst, if_neg (by simpa using isOther), ih restUnnamed,
      List.cons_append]

/-- Nodes that have no step of a name are passed over when one is taken out. -/
theorem takeStep?_append_of_unnamed
    (unnamed : ∀ step ∈ nodes.flatMap (·.steps), step.name ≠ name) :
    takeStep? name (nodes ++ rest) =
      (takeStep? name rest).map fun taken => (taken.1, nodes ++ taken.2) := by
  induction nodes with
  | nil => simp
  | cons node others ih =>
    rw [List.flatMap_cons, List.forall_mem_append] at unnamed
    have none : node.steps.find? (·.name == name) = none :=
      List.find?_eq_none.mpr fun step isStep => by simpa using unnamed.1 step isStep
    rw [List.cons_append, takeStep?, none, ih unnamed.2]
    cases takeStep? name rest <;> rfl

/-- They are passed over when one is changed. -/
theorem updateNodes_append_of_unnamed (change : Step → Step)
    (unnamed : ∀ step ∈ nodes.flatMap (·.steps), step.name ≠ name) :
    updateNodes name change (nodes ++ rest) = nodes ++ updateNodes name change rest := by
  induction nodes with
  | nil => rfl
  | cons node others ih =>
    rw [List.flatMap_cons, List.forall_mem_append] at unnamed
    have none : ¬ node.steps.any (·.name == name) = true := by
      simpa using unnamed.1
    rw [List.cons_append, updateNodes, if_neg none, ih unnamed.2, List.cons_append]

end Unnamed

/-! ### Places among the steps of nodes -/

/-- A place among the steps of nodes: the nodes before it and those after it, and the node it is in,
of which some steps stand earlier and some later. -/
structure Spot where
  before : List Node
  node : Node
  earlier : List Step
  later : List Step
  after : List Node

namespace Spot

variable {spot : Spot} {name : String} {step : Step} {nodes : List Node}

/-- The nodes with some steps at the spot. -/
def fill (spot : Spot) (steps : List Step) : List Node :=
  spot.before ++ { spot.node with steps := spot.earlier ++ steps ++ spot.later } :: spot.after

/-- The steps of nodes that stand before the spot. -/
def stepsBefore (spot : Spot) : List Step := spot.before.flatMap (·.steps) ++ spot.earlier

/-- The steps of nodes that stand after the spot. -/
def stepsAfter (spot : Spot) : List Step := spot.later ++ spot.after.flatMap (·.steps)

/-- What is shown before the spot: the steps of nodes with their prompts. -/
def shownBefore (spot : Spot) : List Step := spot.stepsBefore.flatMap Step.withPrompts

/-- What is shown after the spot. -/
def shownAfter (spot : Spot) : List Step := spot.stepsAfter.flatMap Step.withPrompts

theorem flatMap_fill (spot : Spot) (steps : List Step) :
    (spot.fill steps).flatMap (·.steps) = spot.stepsBefore ++ steps ++ spot.stepsAfter := by
  simp only [fill, stepsBefore, stepsAfter, List.flatMap_append, List.flatMap_cons,
    List.append_assoc]

/-- The steps of a flow are those at a spot and those around it, all with their prompts. -/
theorem steps_fill (spot : Spot) (steps : List Step) (header : FlowHeader) (names : StepNames) :
    (⟨header, spot.fill steps, names⟩ : Flow).steps =
      spot.shownBefore ++ steps.flatMap Step.withPrompts ++ spot.shownAfter := by
  show ((spot.fill steps).flatMap (·.steps)).flatMap Step.withPrompts = _
  rw [flatMap_fill, List.flatMap_append, List.flatMap_append]
  rfl

/-- A step stands at the spot, as the first with a name among the steps of the nodes. -/
structure Holds (spot : Spot) (name : String) (step : Step) (nodes : List Node) : Prop where
  nodes : nodes = spot.fill [step]
  named : step.name = name
  first : ∀ other ∈ spot.stepsBefore, other.name ≠ name

/-- Some step is the first with a name, if there is one at all. -/
theorem exists_holds (isThere : ∃ step ∈ nodes.flatMap (·.steps), step.name = name) :
    ∃ spot step, Holds spot name step nodes := by
  obtain ⟨other, isStep, named⟩ := isThere
  obtain ⟨holder, isNode, inNode⟩ := List.mem_flatMap.mp isStep
  -- First the node is found, and then the step in it.
  have nodeFound : (nodes.find? fun node => node.steps.any (·.name == name)).isSome = true :=
    List.find?_isSome.mpr ⟨holder, isNode, List.any_eq_true.mpr ⟨other, inNode, by simpa using named⟩⟩
  obtain ⟨node, isFirstNode⟩ := Option.isSome_iff_exists.mp nodeFound
  obtain ⟨hasStep, before, after, rfl, unnamedBefore⟩ := List.find?_eq_some_iff_append.mp isFirstNode
  rw [← List.isSome_find?] at hasStep
  obtain ⟨step, isFirst⟩ := Option.isSome_iff_exists.mp hasStep
  obtain ⟨isNamed, earlier, later, split, unnamed⟩ := List.find?_eq_some_iff_append.mp isFirst
  refine ⟨⟨before, node, earlier, later, after⟩, step, ?_, by simpa using isNamed, ?_⟩
  · rw [fill, List.append_assoc, List.singleton_append, ← split]
  · refine List.forall_mem_append.mpr ⟨fun other isBefore => ?_, by simpa using unnamed⟩
    obtain ⟨earlierNode, isNode, inNode⟩ := List.mem_flatMap.mp isBefore
    have none := unnamedBefore earlierNode isNode
    simp only [Bool.not_eq_true', List.any_eq_false] at none
    simpa using none other inNode

namespace Holds

theorem topStep? {flow : Flow} (holds : Holds spot name step flow.nodes) :
    flow.topStep? name = some step := by
  rw [Flow.topStep?, topSteps, holds.nodes, flatMap_fill, List.append_assoc,
    find?_append_of_unnamed holds.first]
  simp [holds.named]

/-- Taking the step out leaves the nodes with nothing at the spot. -/
theorem takeStep? (holds : Holds spot name step nodes) :
    takeStep? name nodes = some (step, spot.fill []) := by
  obtain ⟨unnamedBefore, unnamed⟩ := List.forall_mem_append.mp holds.first
  have found : (spot.earlier ++ step :: spot.later).find? (·.name == name) = some step := by
    rw [find?_append_of_unnamed unnamed]
    simp [holds.named]
  have erased : (spot.earlier ++ step :: spot.later).eraseP (·.name == name) =
      spot.earlier ++ spot.later := by
    rw [List.eraseP_append_right _ fun other isEarlier => by simpa using unnamed other isEarlier]
    simp [holds.named]
  rw [holds.nodes, fill, List.append_assoc, List.singleton_append,
    takeStep?_append_of_unnamed unnamedBefore, Flow.takeStep?, found]
  simp only [Option.map_some, erased, fill, List.append_nil]

theorem removeStep {flow : Flow} (holds : Holds spot name step flow.nodes) :
    flow.removeStep name = (some step, { flow with nodes := spot.fill [] }) := by
  rw [Flow.removeStep, holds.takeStep?]

/-- Changing the step leaves the nodes with what it is changed into at the spot. -/
theorem updateNodes (holds : Holds spot name step nodes) (change : Step → Step) :
    updateNodes name change nodes = spot.fill [change step] := by
  obtain ⟨unnamedBefore, unnamed⟩ := List.forall_mem_append.mp holds.first
  have here : (spot.earlier ++ step :: spot.later).any (·.name == name) = true := by
    simp [holds.named]
  have changed : updateFirst name change (spot.earlier ++ step :: spot.later) =
      spot.earlier ++ change step :: spot.later := by
    rw [updateFirst_append_of_unnamed change unnamed, updateFirst, if_pos (by simp [holds.named])]
  rw [holds.nodes, fill, List.append_assoc, List.singleton_append,
    updateNodes_append_of_unnamed change unnamedBefore, Flow.updateNodes, if_pos here, changed, fill,
    List.append_assoc, List.singleton_append]

theorem updateStep {flow : Flow} (holds : Holds spot name step flow.nodes)
    (change : Step → Step) :
    flow.updateStep name change = { flow with nodes := spot.fill [change step] } := by
  rw [Flow.updateStep, holds.updateNodes]

end Holds

end Spot

/-- What the names of the steps of nodes come to: there is a first step with a name, or there is
nothing to take out and nothing to change. -/
theorem holds_or_unnamed (name : String) (nodes : List Node) :
    (∃ spot step, Spot.Holds spot name step nodes) ∨
      (∀ step ∈ nodes.flatMap (·.steps), step.name ≠ name) ∧ takeStep? name nodes = none ∧
        ∀ change, updateNodes name change nodes = nodes := by
  by_cases isThere : ∃ step ∈ nodes.flatMap (·.steps), step.name = name
  · exact Or.inl (Spot.exists_holds isThere)
  · have unnamed : ∀ step ∈ nodes.flatMap (·.steps), step.name ≠ name :=
      fun step isStep named => isThere ⟨step, isStep, named⟩
    have untaken : takeStep? name (nodes ++ []) = none := takeStep?_append_of_unnamed unnamed
    rw [List.append_nil] at untaken
    refine Or.inr ⟨unnamed, untaken, fun change => ?_⟩
    have kept : updateNodes name change (nodes ++ []) = nodes ++ [] :=
      updateNodes_append_of_unnamed change unnamed
    rwa [List.append_nil] at kept

/-! ### Lookups that meet -/

/-- A step of a node is the one step of its name that is shown, and every lookup of the name is for
it. Taking it out takes it and its prompts from among the steps of the flow; changing it changes
nothing else. -/
structure Located (flow : Flow) (name : String) (step : Step) (spot : Spot) : Prop where
  nodes : flow.nodes = spot.fill [step]
  steps : flow.steps = spot.shownBefore ++ step.withPrompts ++ spot.shownAfter
  named : step.name = name
  others : ∀ other ∈ spot.shownBefore ++ step.prompts ++ spot.shownAfter, other.name ≠ name
  top : flow.topStep? name = some step
  shown : flow.step? name = some step
  removed : flow.removeStep name = (some step, { flow with nodes := spot.fill [] })
  stepsLeft : ({ flow with nodes := spot.fill [] } : Flow).steps =
    spot.shownBefore ++ spot.shownAfter
  absent : ({ flow with nodes := spot.fill [] } : Flow).step? name = none
  changed : ∀ change, flow.updateStep name change = { flow with nodes := spot.fill [change step] }

theorem Spot.Holds.located {spot : Spot} {name : String} {step : Step} {flow : Flow}
    (holds : Holds spot name step flow.nodes)
    (others : ∀ other ∈ spot.shownBefore ++ step.prompts ++ spot.shownAfter, other.name ≠ name) :
    Located flow name step spot := by
  obtain ⟨header, nodes, names⟩ := flow
  obtain rfl : nodes = spot.fill [step] := holds.nodes
  have steps := spot.steps_fill [step] header names
  have stepsLeft := spot.steps_fill [] header names
  rw [List.flatMap_singleton] at steps
  rw [List.flatMap_nil, List.append_nil] at stepsLeft
  refine ⟨rfl, steps, holds.named, others, holds.topStep?, ?_, holds.removeStep, stepsLeft, ?_,
    holds.updateStep⟩
  · have before := (List.forall_mem_append.mp (List.forall_mem_append.mp others).1).1
    rw [step?, steps, List.append_assoc, find?_append_of_unnamed before]
    simp [Step.withPrompts, holds.named]
  · rw [step?, stepsLeft, List.find?_eq_none]
    intro other isLeft
    have isOther : other ∈ spot.shownBefore ++ step.prompts ++ spot.shownAfter := by
      rw [List.mem_append] at isLeft ⊢
      exact isLeft.imp_left (List.mem_append_left _)
    simpa using others other isOther

/-- **While names are distinct, lookups meet.** There is a step to change or to take out exactly when
a step of a node has the name, and then it is the one that is shown; where only a prompt has the
name, or nothing has it, a flow cannot be changed under it. -/
theorem lookups_meet {flow : Flow} (distinct : flow.stepNames.Nodup) {name : String}
    (isName : name ≠ "") :
    ((flow.topStep? name).isSome = true ↔ ∃ step ∈ flow.topSteps, step.name = name) ∧
      (∀ step, flow.topStep? name = some step → ∃ spot, Located flow name step spot) ∧
      ((∀ step ∈ flow.topSteps, step.name ≠ name) →
        flow.topStep? name = none ∧ flow.removeStep name = (none, flow) ∧
          ∀ change, flow.updateStep name change = flow) := by
  have present : (flow.topStep? name).isSome = true ↔ ∃ step ∈ flow.topSteps, step.name = name := by
    rw [topStep?, List.find?_isSome]
    simp only [beq_iff_eq]
  refine ⟨present, fun step found => ?_, fun unnamed => ?_⟩
  · -- The first step with the name stands at a spot, and no other step that is shown has its name.
    obtain ⟨spot, first, holds⟩ :=
      Spot.exists_holds (present.mp (Option.isSome_iff_exists.mpr ⟨step, found⟩))
    obtain rfl : first = step := Option.some.inj (holds.topStep?.symm.trans found)
    refine ⟨spot, holds.located ?_⟩
    have steps : flow.steps = spot.shownBefore ++ first :: (first.prompts ++ spot.shownAfter) := by
      have around := spot.steps_fill [first] flow.header flow.names
      rw [← holds.nodes, List.flatMap_singleton, List.append_assoc] at around
      exact around
    have names : (Step.namesOf flow.steps).Nodup := distinct
    rw [steps] at names
    rw [List.append_assoc]
    intro other isOther
    rw [← holds.named] at isName ⊢
    exact Step.name_ne_of_nodup names isName other isOther
  · obtain ⟨spot, step, holds⟩ | ⟨_, untaken, kept⟩ := holds_or_unnamed name flow.nodes
    · have isStep : step ∈ flow.topSteps := List.mem_of_find?_eq_some holds.topStep?
      exact absurd holds.named (unnamed step isStep)
    · refine ⟨?_, ?_, fun change => ?_⟩
      · exact List.find?_eq_none.mpr fun step isStep => by simpa using unnamed step isStep
      · rw [removeStep, untaken]
      · rw [updateStep, kept]

/-- A flow with two nodes of one name. The first of them has a gather step with a prompt. -/
def prompted : Flow :=
  let menu : Step := .gather (.new .gather "ask") .new [.new .say "step1"]
  ⟨.new, [.new "" "", ⟨"main", "", "voice", .obj [], [.new .pause "wait", menu]⟩,
    ⟨"main", "", "voice", .obj [], [.new .hangUp "bye"]⟩], .start⟩

/-- The gather step is taken out with its prompt, and the prompt cannot be taken out alone. -/
theorem lookups_meet_prompted :
    prompted.stepNames = ["wait", "ask", "step1", "bye"] ∧
      (∃ step rest, prompted.step? "ask" = some step ∧
        prompted.removeStep "ask" = (some step, rest) ∧ rest.stepNames = ["wait", "bye"]) ∧
      (prompted.step? "step1").isSome = true ∧
      prompted.removeStep "step1" = (none, prompted) := by
  have distinct : prompted.stepNames.Nodup := by decide
  obtain ⟨_, meets, _⟩ := lookups_meet distinct (show "ask" ≠ "" by decide)
  obtain ⟨_, _, alone⟩ := lookups_meet distinct (show "step1" ≠ "" by decide)
  obtain ⟨spot, located⟩ := meets _ rfl
  have left := congrArg (fun outcome => outcome.2.stepNames) located.removed
  exact ⟨rfl, ⟨_, _, located.shown, located.removed, left.symm.trans rfl⟩, rfl,
    (alone (by decide)).2.1⟩

/-! ### A step that has been added -/

/-- **Taking out undoes adding.** A step that has been added is found under its name, whether to be
shown or to be changed, and changing it is as good as having added what it is changed into. Taking
it out leaves the flow as it was before, but for the counter, which has moved on. -/
theorem removeStep_addStep {vocabulary : Vocabulary} {node word : String} {flow after : Flow}
    {step : Step} (added : flow.addStep vocabulary node word = (.ok step, after)) :
    after.step? step.name = some step ∧ after.topStep? step.name = some step ∧
      (∀ change, ∃ nodes, Appended node (change step) flow.nodes nodes ∧
        after.updateStep step.name change = { flow with nodes := nodes, names := after.names }) ∧
      after.removeStep step.name = (some step, { flow with names := after.names }) ∧
      flow.names.last < after.names.last := by
  obtain ⟨kind, number, nodes, _, next, rfl, appended, rfl⟩ := addStep_eq_ok_iff.mp added
  obtain ⟨before, target, behind, split, unnamed, isNode, isNodes⟩ := appended
  -- The spot of the new step is the end of the node it has been added to.
  let spot : Spot := ⟨before, target, target.steps, [], behind⟩
  have fill (steps : List Step) :
      spot.fill steps = before ++ { target with steps := target.steps ++ steps } :: behind := by
    rw [Spot.fill, List.append_nil]
  have before : spot.fill [] = flow.nodes := by
    rw [fill, List.append_nil, split]
  have named := Step.name_new kind (StepNames.nameOf number)
  have others : ∀ other ∈ spot.shownBefore ++ spot.shownAfter,
      other.name ≠ StepNames.nameOf number := by
    have steps := spot.steps_fill [] flow.header flow.names
    rw [before, List.flatMap_nil, List.append_nil] at steps
    rw [← steps]
    exact fun other isOther same => next.free (List.mem_map.mpr ⟨other, isOther, same⟩)
  have holds : spot.Holds (StepNames.nameOf number) (.new kind (StepNames.nameOf number)) nodes := by
    refine ⟨isNodes.trans (fill _).symm, named, fun other isBefore => ?_⟩
    exact others other (List.mem_append_left _ (List.mem_flatMap_of_mem isBefore List.mem_cons_self))
  have noPrompts : (Step.new kind (StepNames.nameOf number)).prompts = [] :=
    (List.cons.inj (Step.withPrompts_new kind _)).2
  have located : Located { flow with nodes := nodes, names := ⟨number⟩ } (StepNames.nameOf number)
      (.new kind (StepNames.nameOf number)) spot :=
    Spot.Holds.located holds (by rw [noPrompts, List.append_nil]; exact others)
  rw [named]
  refine ⟨located.shown, located.top, fun change => ⟨_, ?_, located.changed change⟩, ?_, next.above⟩
  · exact ⟨_, target, behind, split, unnamed, isNode, fill _⟩
  · rw [located.removed, before]

/-- The name of the prompt is passed over, and the new step goes into the first of the two nodes; what
is left without it is the flow with the counter moved on. -/
theorem removeStep_addStep_prompted :
    ∃ after, prompted.addStep .standard "main" "say" = (.ok (.new .say "step2"), after) ∧
      after.stepNames = ["wait", "ask", "step1", "step2", "bye"] ∧
      after.removeStep "step2" = (some (.new .say "step2"), { prompted with names := ⟨2⟩ }) := by
  have added : prompted.addStep .standard "main" "say" =
      (.ok (.new .say "step2"), (prompted.addStep .standard "main" "say").2) := rfl
  obtain ⟨_, _, _, removed, _⟩ := removeStep_addStep added
  exact ⟨_, added, by decide, removed⟩

end IvrFlow.Flow
