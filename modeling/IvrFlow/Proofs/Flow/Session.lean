import IvrFlow.Proofs.Flow.Lookup
import IvrFlow.Proofs.Flow.RoundTrip

/-!
Editing sessions. New names come into a flow with the steps of a node that is added and with what a
step is changed into, and nothing checks them there. An edit keeps the names of a flow distinct
exactly when it is `Fresh` (`nodup_apply_iff`), and so does a run of edits (`nodup_run_iff`); a flow
whose names are not distinct cannot be loaded back.
-/

namespace IvrFlow.Flow

/-! ### Edits -/

/-- An edit of a flow. A step may be changed into any other. -/
inductive Edit where
  | addNode (node : Node)
  | addStep (call : Addition)
  | removeStep (name : String)
  | updateStep (name : String) (change : Step → Step)

/-- The flow after an edit. -/
def Edit.apply (flow : Flow) : Edit → Flow
  | .addNode node => flow.addNode node
  | .addStep call => flow.after call
  | .removeStep name => (flow.removeStep name).2
  | .updateStep name change => flow.updateStep name change

/-- The flow after a run of edits. -/
def run (edits : List Edit) (flow : Flow) : Flow := edits.foldl Edit.apply flow

/-- The names that come with a step. -/
def namesWith (step : Step) : List String := Step.namesOf step.withPrompts

/-- The names in a node. -/
def namesIn (node : Node) : List String := Step.namesOf (node.steps.flatMap Step.withPrompts)

/-- The names that an edit brings into a flow are distinct, and none of them is there beside it.
Only two edits bring names that are not drawn from the counter. -/
def Edit.Fresh (flow : Flow) : Edit → Prop
  | .addNode node => (namesIn node).Nodup ∧ flow.stepNames.Disjoint (namesIn node)
  | .addStep _ => True
  | .removeStep _ => True
  | .updateStep name change => ∀ step rest, flow.removeStep name = (some step, rest) →
      (namesWith (change step)).Nodup ∧ (namesWith (change step)).Disjoint rest.stepNames

/-- Every edit of a run is fresh when it is its turn. -/
def AllFresh (flow : Flow) : List Edit → Prop
  | [] => True
  | edit :: rest => edit.Fresh flow ∧ AllFresh (edit.apply flow) rest

/-! ### Taking out and changing steps -/

/-- The step that is taken out is the one that is changed. -/
theorem updateNodes_perm {name : String} {step : Step} (change : Step → Step)
    {nodes rest : List Node} (taken : takeStep? name nodes = some (step, rest)) :
    ((updateNodes name change nodes).flatMap (·.steps)).Perm
      (change step :: rest.flatMap (·.steps)) := by
  obtain ⟨spot, first, holds⟩ | ⟨_, untaken, _⟩ := holds_or_unnamed name nodes
  · rw [holds.takeStep?] at taken
    cases taken
    rw [holds.updateNodes, Spot.flatMap_fill, Spot.flatMap_fill, List.append_nil, List.append_assoc,
      List.singleton_append]
    exact List.perm_middle
  · rw [untaken] at taken
    cases taken

theorem updateNodes_of_none {name : String} (change : Step → Step) {nodes : List Node}
    (absent : takeStep? name nodes = none) : updateNodes name change nodes = nodes := by
  obtain ⟨spot, first, holds⟩ | ⟨_, _, kept⟩ := holds_or_unnamed name nodes
  · rw [holds.takeStep?] at absent
    cases absent
  · exact kept change

theorem updateNodes_id (name : String) (nodes : List Node) : updateNodes name id nodes = nodes := by
  obtain ⟨spot, first, holds⟩ | ⟨_, _, kept⟩ := holds_or_unnamed name nodes
  · exact (holds.updateNodes id).trans holds.nodes.symm
  · exact kept id

theorem removeStep_cases (name : String) (flow : Flow) :
    (takeStep? name flow.nodes = none ∧ flow.removeStep name = (none, flow)) ∨
      ∃ step nodes, takeStep? name flow.nodes = some (step, nodes) ∧
        flow.removeStep name = (some step, { flow with nodes := nodes }) := by
  unfold removeStep
  cases taken : takeStep? name flow.nodes with
  | none => exact Or.inl ⟨rfl, rfl⟩
  | some pair => exact Or.inr ⟨pair.1, pair.2, rfl, rfl⟩

/-- A step that is changed leaves the names of the others, and brings those of what it has become. -/
theorem stepNames_updateStep_perm {name : String} {flow rest : Flow} {step : Step}
    (removed : flow.removeStep name = (some step, rest)) (change : Step → Step) :
    (flow.updateStep name change).stepNames.Perm (namesWith (change step) ++ rest.stepNames) := by
  rcases removeStep_cases name flow with ⟨_, none⟩ | ⟨first, nodes, taken, some⟩
  · rw [none] at removed
    cases removed
  · rw [some] at removed
    cases removed
    have steps := (updateNodes_perm change taken).flatMap_right Step.withPrompts
    rw [List.flatMap_cons] at steps
    have names := Step.namesOf_perm steps
    rw [Step.namesOf_append] at names
    exact names

/-- The names of a flow are those of one of its steps and of the others. -/
theorem stepNames_perm_of_removeStep {name : String} {flow rest : Flow} {step : Step}
    (removed : flow.removeStep name = (some step, rest)) :
    flow.stepNames.Perm (namesWith step ++ rest.stepNames) := by
  have unchanged : flow.updateStep name id = flow := by
    rw [updateStep, updateNodes_id]
  have names := stepNames_updateStep_perm removed id
  rw [unchanged] at names
  exact names

theorem nodup_removeStep (name : String) {flow : Flow} (distinct : flow.stepNames.Nodup) :
    (flow.removeStep name).2.stepNames.Nodup := by
  rcases removeStep_cases name flow with ⟨_, none⟩ | ⟨step, nodes, _, some⟩
  · rw [none]
    exact distinct
  · have all := (stepNames_perm_of_removeStep some).nodup_iff.mp distinct
    rw [some]
    exact (List.nodup_append'.mp all).2.1

@[simp] theorem topSteps_addNode (node : Node) (flow : Flow) :
    (flow.addNode node).topSteps = flow.topSteps ++ node.steps := by
  simp only [topSteps, addNode, List.flatMap_append, List.flatMap_singleton]

@[simp] theorem stepNames_addNode (node : Node) (flow : Flow) :
    (flow.addNode node).stepNames = flow.stepNames ++ namesIn node := by
  rw [stepNames, steps, topSteps_addNode, List.flatMap_append]
  exact Step.namesOf_append flow.steps (node.steps.flatMap Step.withPrompts)

/-! ### Which sessions keep the names distinct -/

/-- **An edit keeps names distinct exactly when it is fresh.** -/
theorem nodup_apply_iff {flow : Flow} (distinct : flow.stepNames.Nodup) (edit : Edit) :
    (edit.apply flow).stepNames.Nodup ↔ edit.Fresh flow := by
  cases edit with
  | addNode node =>
    rw [Edit.apply, stepNames_addNode, List.nodup_append']
    exact and_iff_right distinct
  | addStep call => exact iff_of_true ((grows_after call flow).distinct distinct) trivial
  | removeStep name => exact iff_of_true (nodup_removeStep name distinct) trivial
  | updateStep name change =>
    rcases removeStep_cases name flow with ⟨absent, none⟩ | ⟨step, nodes, _, some⟩
    · -- Without such a step nothing changes.
      have unchanged : flow.updateStep name change = flow := by
        rw [updateStep, updateNodes_of_none change absent]
      rw [Edit.apply, unchanged]
      refine iff_of_true distinct fun step rest removed => ?_
      rw [none] at removed
      cases removed
    · have others := nodup_removeStep name distinct
      rw [some] at others
      rw [Edit.apply, (stepNames_updateStep_perm some change).nodup_iff, List.nodup_append']
      constructor
      · rintro ⟨own, _, disjoint⟩ other rest removed
        rw [some] at removed
        cases removed
        exact ⟨own, disjoint⟩
      · intro fresh
        obtain ⟨own, disjoint⟩ := fresh step _ some
        exact ⟨own, others, disjoint⟩

/-- **A run of edits keeps names distinct all along exactly when all its edits are fresh**, by
induction on the run. -/
theorem nodup_run_iff {flow : Flow} (distinct : flow.stepNames.Nodup) (edits : List Edit) :
    (∀ before, before <+: edits → (flow.run before).stepNames.Nodup) ↔ flow.AllFresh edits := by
  induction edits generalizing flow with
  | nil =>
    refine iff_of_true (fun before isPrefix => ?_) trivial
    rw [List.prefix_nil.mp isPrefix]
    exact distinct
  | cons edit rest ih =>
    constructor
    · intro always
      have once : (edit.apply flow).stepNames.Nodup :=
        always [edit] (List.prefix_append [edit] rest)
      refine ⟨(nodup_apply_iff distinct edit).mp once, (ih once).mp fun before isPrefix => ?_⟩
      exact always (edit :: before) ((List.prefix_cons_inj edit).mpr isPrefix)
    · rintro ⟨fresh, allFresh⟩ before isPrefix
      have once := (nodup_apply_iff distinct edit).mpr fresh
      cases before with
      | nil => exact distinct
      | cons first others =>
        obtain ⟨rfl, isRest⟩ := List.cons_prefix_cons.mp isPrefix
        exact (ih once).mpr allFresh others isRest

/-! ### Saving and loading along a session -/

/-- The paths that come with an edit are reachable, as all paths are that can be had. -/
def Edit.Tame : Edit → Prop
  | .addNode node => ∀ step ∈ node.steps, ∀ path ∈ step.paths, path.Reachable
  | .addStep _ => True
  | .removeStep _ => True
  | .updateStep _ change => ∀ step : Step, (∀ path ∈ step.paths, path.Reachable) →
      ∀ path ∈ (change step).paths, path.Reachable

theorem reachable_new (kind : StepKind) (name : String) :
    ∀ path ∈ (Step.new kind name).paths, path.Reachable := by
  intro path isPath
  cases kind with
  | externalService =>
    rw [List.mem_singleton.mp isPath]
    exact .empty
  | say | play | gather | dial | redirect | hangUp | reject | pause =>
    exact absurd isPath List.not_mem_nil

/-- A tame edit leads from reachable paths to reachable paths. -/
theorem reachable_apply {flow : Flow}
    (reachable : ∀ step ∈ flow.topSteps, ∀ path ∈ step.paths, path.Reachable) {edit : Edit}
    (tame : edit.Tame) :
    ∀ step ∈ (edit.apply flow).topSteps, ∀ path ∈ step.paths, path.Reachable := by
  intro step isTop
  cases edit with
  | addNode node =>
    rw [Edit.apply, topSteps_addNode] at isTop
    rcases List.mem_append.mp isTop with before | isNew
    · exact reachable step before
    · exact tame step isNew
  | addStep call =>
    rcases after_cases call flow with ⟨names, eq, _⟩ | ⟨kind, index, names, inBounds, eq, _⟩
    · rw [Edit.apply, eq] at isTop
      exact reachable step isTop
    · rw [Edit.apply, eq] at isTop
      rcases List.mem_append.mp ((flatMap_modify_perm _ inBounds).subset isTop) with before | isNew
      · exact reachable step before
      · rw [List.mem_singleton.mp isNew]
        exact reachable_new kind _
  | removeStep name =>
    rcases removeStep_cases name flow with ⟨_, none⟩ | ⟨first, nodes, taken, some⟩
    · rw [Edit.apply, none] at isTop
      exact reachable step isTop
    · rw [Edit.apply, some] at isTop
      have among := (updateNodes_perm id taken).symm.subset (List.mem_cons_of_mem _ isTop)
      rw [updateNodes_id] at among
      exact reachable step among
  | updateStep name change =>
    rcases removeStep_cases name flow with ⟨absent, _⟩ | ⟨first, nodes, taken, _⟩
    · rw [Edit.apply, updateStep, updateNodes_of_none change absent] at isTop
      exact reachable step isTop
    · have held := (updateNodes_perm id taken).symm.subset
      rw [updateNodes_id] at held
      rcases List.mem_cons.mp ((updateNodes_perm change taken).subset isTop) with rfl | isOther
      · exact tame first (reachable first (held List.mem_cons_self))
      · exact reachable step (held (List.mem_cons_of_mem _ isOther))

theorem reachable_run {flow : Flow}
    (reachable : ∀ step ∈ flow.topSteps, ∀ path ∈ step.paths, path.Reachable) {edits : List Edit}
    (tame : ∀ edit ∈ edits, edit.Tame) :
    ∀ step ∈ (flow.run edits).topSteps, ∀ path ∈ step.paths, path.Reachable := by
  induction edits generalizing flow with
  | nil => exact reachable
  | cons edit rest ih =>
    exact ih (reachable_apply reachable (tame edit List.mem_cons_self))
      fun other member => tame other (List.mem_cons_of_mem _ member)

/-- The flows that a session starts from. -/
inductive Opened : Flow → Prop where
  | new (header : FlowHeader) : Opened (.new header)
  | load {vocabulary : Vocabulary} {stored : Json} {flow : Flow} :
    Flow.load vocabulary stored = .ok flow → Opened flow

theorem Opened.nodup_stepNames {flow : Flow} (opened : flow.Opened) : flow.stepNames.Nodup := by
  cases opened with
  | new header => exact List.nodup_nil
  | load loaded => exact nodup_stepNames_of_load loaded

theorem Opened.reachable {flow : Flow} (opened : flow.Opened) :
    ∀ step ∈ flow.topSteps, ∀ path ∈ step.paths, path.Reachable := by
  cases opened with
  | new header => exact fun step isTop => absurd isTop List.not_mem_nil
  | load loaded =>
    intro step isTop path isPath
    refine reachable_of_load loaded path ?_
    rw [paths, Step.pathsAll_eq_flatMap]
    exact List.mem_flatMap_of_mem isTop isPath

/-- **Which sessions can be saved and loaded again.** All along a session the names are distinct
exactly when all its edits are fresh. A flow that a session leads to is loaded back if its names are
distinct, and otherwise refused for one of them. -/
theorem load_canonical_run {vocabulary : Vocabulary} (keeps : vocabulary.KeepsWords) {start : Flow}
    (opened : start.Opened) {edits : List Edit} (tame : ∀ edit ∈ edits, edit.Tame) :
    ((∀ before, before <+: edits → (start.run before).stepNames.Nodup) ↔ start.AllFresh edits) ∧
      ((start.run edits).stepNames.Nodup →
        load vocabulary (start.run edits).canonical = .ok (start.run edits).normalForm) ∧
      (¬ (start.run edits).stepNames.Nodup →
        ∃ name, load vocabulary (start.run edits).canonical = .error (.duplicateStepName name)) := by
  have reachable : ∀ path ∈ (start.run edits).paths, path.Reachable := by
    intro path isPath
    rw [paths, Step.pathsAll_eq_flatMap] at isPath
    obtain ⟨step, isTop, inStep⟩ := List.mem_flatMap.mp isPath
    exact reachable_run opened.reachable tame step isTop path inStep
  have loaded := load_canonical keeps reachable
  refine ⟨nodup_run_iff opened.nodup_stepNames edits, fun distinct => ?_, fun repeated => ?_⟩
  · rw [loaded, firstRepeated_stepNames distinct]
  · cases found : firstRepeated [] (start.run edits).stepNames with
    | none => exact absurd ((firstRepeated_eq_none_iff _ _).mp found).1 repeated
    | some name =>
      rw [found] at loaded
      exact ⟨name, loaded⟩

/-- A node with one step, named as the first step that a new flow would add. -/
def namedNode : Node := { Node.new "main" "Main" with steps := [.new .say "step1"] }

/-- Adding such a node twice is a session whose outcome cannot be loaded back. -/
theorem not_load_canonical_run_namedNode :
    ¬ (new .new).AllFresh [.addNode namedNode, .addNode namedNode] ∧
      ∃ name, load .standard
        ((new .new).run [.addNode namedNode, .addNode namedNode]).canonical =
          .error (.duplicateStepName name) := by
  have tame : ∀ edit ∈ [Edit.addNode namedNode, Edit.addNode namedNode], edit.Tame := by
    intro edit member
    have isAdd : edit = .addNode namedNode := by simpa using member
    rw [isAdd]
    intro step isStep
    rw [List.mem_singleton.mp isStep]
    exact reachable_new .say "step1"
  have repeated : ¬ ((new .new).run [.addNode namedNode, .addNode namedNode]).stepNames.Nodup := by
    decide
  obtain ⟨along, _, refused⟩ := load_canonical_run Vocabulary.keepsWords_standard (.new .new) tame
  exact ⟨fun fresh => repeated (along.mpr fresh _ (List.prefix_refl _)), refused repeated⟩

end IvrFlow.Flow
