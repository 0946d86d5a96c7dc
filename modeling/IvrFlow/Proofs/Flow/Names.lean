import IvrFlow.Flow.Load
import IvrFlow.Proofs.Flow.Addition
import IvrFlow.Proofs.Record.Frame
import Mathlib.Data.List.Nodup
import Mathlib.Data.List.Perm.Basic

/-!
The names of the steps of a flow. Loading checks that those of the steps at the top and of their
prompts are distinct (`nodup_stepNames_of_load`), and adding steps keeps them so
(`nodup_stepNames_grow`). Neither looks at the prompts of prompts, whose names are `buriedNames`.
-/

namespace IvrFlow

/-! ### Names of steps -/

namespace Step

/-- The names that some steps have. -/
def namesOf (steps : List Step) : List String := (steps.map name).filter (· ≠ "")

/-- A step and its prompts. -/
def withPrompts (step : Step) : List Step := step :: step.prompts

mutual

/-- A step and its prompts at every depth. -/
def within : Step → List Step
  | .act header action => [.act header action]
  | .gather header digits prompts => .gather header digits prompts :: withinAll prompts

/-- Steps and their prompts at every depth. -/
def withinAll : List Step → List Step
  | [] => []
  | step :: rest => within step ++ withinAll rest

end

/-- The prompts of the prompts of a step, and theirs at every depth. -/
def buried (step : Step) : List Step := step.prompts.flatMap fun prompt => withinAll prompt.prompts

@[simp] theorem withinAll_eq_flatMap : ∀ steps : List Step, withinAll steps = steps.flatMap within
  | [] => rfl
  | step :: rest => by rw [withinAll, withinAll_eq_flatMap rest, List.flatMap_cons]

theorem within_eq_cons (step : Step) : within step = step :: withinAll step.prompts := by
  cases step with
  | act header action => rfl
  | gather header digits prompts => rfl

/-- What is within a step are the step and its prompts, and what is buried in it. -/
theorem within_perm (step : Step) : (within step).Perm (step.withPrompts ++ step.buried) := by
  have prompts : (step.prompts.flatMap within).Perm (step.prompts ++ step.buried) := by
    have split : step.prompts.flatMap within =
        step.prompts.flatMap fun prompt => [prompt] ++ withinAll prompt.prompts :=
      List.flatMap_congr fun prompt _ => within_eq_cons prompt
    have regrouped := List.flatMap_append_perm step.prompts (fun prompt => [prompt])
      fun prompt => withinAll prompt.prompts
    rw [List.flatMap_singleton'] at regrouped
    rw [split]
    exact regrouped.symm
  rw [within_eq_cons, withinAll_eq_flatMap]
  exact prompts.cons step

theorem mem_namesOf {name : String} {steps : List Step} :
    name ∈ namesOf steps ↔ name ≠ "" ∧ ∃ step ∈ steps, step.name = name := by
  simp only [namesOf, List.mem_filter, List.mem_map, decide_eq_true_eq]
  exact and_comm

@[simp] theorem namesOf_append (first second : List Step) :
    namesOf (first ++ second) = namesOf first ++ namesOf second := by
  simp only [namesOf, List.map_append, List.filter_append]

theorem namesOf_perm {first second : List Step} (perm : first.Perm second) :
    (namesOf first).Perm (namesOf second) := (perm.map name).filter _

/-- Where names are distinct, no other step has the name of a step that has one. -/
theorem name_ne_of_nodup {before after : List Step} {step : Step}
    (distinct : (namesOf (before ++ step :: after)).Nodup) (isName : step.name ≠ "") :
    ∀ other ∈ before ++ after, other.name ≠ step.name := by
  have first : namesOf (step :: (before ++ after)) = step.name :: namesOf (before ++ after) := by
    rw [namesOf, List.map_cons, List.filter_cons_of_pos (by simpa using isName), namesOf]
  rw [(namesOf_perm List.perm_middle).nodup_iff, first] at distinct
  intro other isOther same
  exact (List.nodup_cons.mp distinct).1 (mem_namesOf.mpr ⟨isName, other, isOther, same⟩)

theorem namesOf_map {change : Step → Step} (keeps : ∀ step, (change step).name = step.name)
    (steps : List Step) : namesOf (steps.map change) = namesOf steps := by
  rw [namesOf, List.map_map, namesOf]
  exact congrArg _ (List.map_congr_left fun step _ => keeps step)

theorem withPrompts_new (kind : StepKind) (name : String) :
    (new kind name).withPrompts = [new kind name] := by
  cases kind <;> rfl

theorem buried_new (kind : StepKind) (name : String) : (new kind name).buried = [] := by
  cases kind <;> rfl

theorem name_new (kind : StepKind) (name : String) : (new kind name).name = name := by
  rw [Step.name, header_new]
  rfl

end Step

/-! ### The check of names -/

/-- The check finds nothing exactly when the names are distinct and none of them has been seen. -/
theorem firstRepeated_eq_none_iff (seen names : List String) :
    firstRepeated seen names = none ↔ names.Nodup ∧ ∀ name ∈ names, name ∉ seen := by
  induction names generalizing seen with
  | nil => simp [firstRepeated]
  | cons name rest ih =>
    by_cases isSeen : name ∈ seen
    · simp [firstRepeated, isSeen]
    · simp only [firstRepeated, List.contains_iff_mem, isSeen, if_false, ih, List.nodup_cons,
        List.mem_cons, not_or, forall_eq_or_imp, not_false_eq_true, true_and]
      constructor
      · rintro ⟨distinct, unseen⟩
        exact ⟨⟨fun again => (unseen name again).1 rfl, distinct⟩,
          fun other member => (unseen other member).2⟩
      · rintro ⟨⟨once, distinct⟩, unseen⟩
        refine ⟨distinct, fun other member => ⟨?_, unseen other member⟩⟩
        rintro rfl
        exact once member

/-- The name whose second occurrence comes before that of any other. -/
def RepeatsFirst (name : String) (names : List String) : Prop :=
  ∃ before after, names = before ++ name :: after ∧ before.Nodup ∧ name ∈ before

/-- The check finds the first name that is there, or has been seen, before. -/
theorem firstRepeated_eq_some_iff (seen names : List String) (name : String) :
    firstRepeated seen names = some name ↔ ∃ before after, names = before ++ name :: after ∧
      before.Nodup ∧ (∀ other ∈ before, other ∉ seen) ∧ (name ∈ before ∨ name ∈ seen) := by
  induction names generalizing seen with
  | nil => simp [firstRepeated]
  | cons first rest ih =>
    rw [firstRepeated]
    by_cases isSeen : first ∈ seen
    · rw [if_pos (List.contains_iff_mem.mpr isSeen), Option.some.injEq]
      constructor
      · rintro rfl
        exact ⟨[], rest, rfl, List.nodup_nil, List.forall_mem_nil _, Or.inr isSeen⟩
      · rintro ⟨before, after, split, _, unseen, _⟩
        cases before with
        | nil => exact (List.cons.inj split).1
        | cons other before =>
          cases split
          exact absurd isSeen (unseen first List.mem_cons_self)
    · rw [if_neg (mt List.contains_iff_mem.mp isSeen), ih]
      constructor
      · rintro ⟨before, after, rfl, distinct, unseen, again⟩
        have isNew : first ∉ before :=
          fun isThere => unseen first isThere List.mem_cons_self
        refine ⟨first :: before, after, rfl, List.nodup_cons.mpr ⟨isNew, distinct⟩, ?_, ?_⟩
        · refine List.forall_mem_cons.mpr ⟨isSeen, fun other isThere => ?_⟩
          exact fun isSeenToo => unseen other isThere (List.mem_cons_of_mem _ isSeenToo)
        · rw [List.mem_cons] at again ⊢
          tauto
      · rintro ⟨before, after, split, distinct, unseen, again⟩
        cases before with
        | nil =>
          cases split
          rcases again with isThere | isSeenToo
          · cases isThere
          · exact absurd isSeenToo isSeen
        | cons other before =>
          cases split
          obtain ⟨isNew, distinct⟩ := List.nodup_cons.mp distinct
          obtain ⟨_, unseen⟩ := List.forall_mem_cons.mp unseen
          refine ⟨before, after, rfl, distinct, fun other isThere => ?_, ?_⟩
          · rw [List.mem_cons]
            rintro (rfl | isSeenToo)
            · exact isNew isThere
            · exact unseen other isThere isSeenToo
          · rw [List.mem_cons] at again ⊢
            tauto

theorem firstRepeated_eq_some_iff_repeatsFirst (names : List String) (name : String) :
    firstRepeated [] names = some name ↔ RepeatsFirst name names := by
  rw [firstRepeated_eq_some_iff]
  constructor
  · rintro ⟨before, after, split, distinct, _, isThere | isSeen⟩
    · exact ⟨before, after, split, distinct, isThere⟩
    · cases isSeen
  · rintro ⟨before, after, split, distinct, isThere⟩
    exact ⟨before, after, split, distinct, fun _ _ => List.not_mem_nil, Or.inl isThere⟩

/-! ### Loading -/

namespace FlowError

variable {α : Type} {value : α}

theorem ofFault_eq_ok_iff {read : Except Fault α} :
    ofFault read = .ok value ↔ read = .ok value := by
  cases read with
  | ok other => simp only [ofFault, Except.ok.injEq]
  | error fault => simp only [ofFault, reduceCtorEq]

theorem ofStep_eq_ok_iff {load : Except StepError α} :
    ofStep load = .ok value ↔ load = .ok value := by
  cases load with
  | ok other => simp only [ofStep, Except.ok.injEq]
  | error error => simp only [ofStep, reduceCtorEq]

end FlowError

namespace Flow

/-- What loading a flow comes to: its parts are read, its nodes loaded and its names checked. -/
theorem load_cases {vocabulary : Vocabulary} {stored : Json} {flow : Flow}
    (loaded : load vocabulary stored = .ok flow) :
    ∃ raw, StoredFlow.form.codec.read stored = .ok raw ∧
      raw.nodes.mapM (Node.load vocabulary) = .ok flow.nodes ∧ flow.header = raw.header ∧
      flow.names = ⟨raw.lastStepId⟩ ∧ flow.stepNames.Nodup := by
  obtain ⟨raw, read, loaded⟩ := bind_eq_ok_iff.mp loaded
  obtain ⟨nodes, loadedNodes, checked⟩ := bind_eq_ok_iff.mp loaded
  simp only at checked
  split at checked
  · cases checked
  · rename_i unrepeated
    cases checked
    exact ⟨raw, FlowError.ofFault_eq_ok_iff.mp read, loadedNodes, rfl, rfl,
      ((firstRepeated_eq_none_iff _ _).mp unrepeated).1⟩

/-- The names in a loaded flow are distinct, as far as they are checked. -/
theorem nodup_stepNames_of_load {vocabulary : Vocabulary} {stored : Json} {flow : Flow}
    (loaded : load vocabulary stored = .ok flow) : flow.stepNames.Nodup := by
  obtain ⟨_, _, _, _, _, distinct⟩ := load_cases loaded
  exact distinct

/-! ### Adding steps -/

/-- The prompts that are not looked at: those of prompts, at every depth. -/
def buriedSteps (flow : Flow) : List Step := flow.topSteps.flatMap Step.buried

/-- The names of the prompts that are not looked at. -/
def buriedNames (flow : Flow) : List String := Step.namesOf flow.buriedSteps

/-- The names of all steps, prompts at every depth included. -/
def allStepNames (flow : Flow) : List String := Step.namesOf (flow.topSteps.flatMap Step.within)

/-- All names are those of the steps that are looked at and of those that are not. -/
theorem allStepNames_perm (flow : Flow) :
    flow.allStepNames.Perm (flow.stepNames ++ flow.buriedNames) := by
  have steps : (flow.topSteps.flatMap Step.within).Perm (flow.steps ++ flow.buriedSteps) :=
    (List.Perm.flatMap_left _ fun step _ => step.within_perm).trans
      (List.flatMap_append_perm flow.topSteps Step.withPrompts Step.buried).symm
  exact (Step.namesOf_perm steps).trans (List.Perm.of_eq (Step.namesOf_append _ _))

theorem mem_stepNames {name : String} (flow : Flow) (named : name ≠ "") :
    name ∈ flow.stepNames ↔ name ∈ flow.steps.map Step.name := by
  rw [stepNames, List.mem_filter]
  simp [named]

/-- A call that adds a step. -/
structure Addition where
  vocabulary : Vocabulary
  node : String
  word : String

/-- The flow after a call, failed or not. -/
def after (call : Addition) (flow : Flow) : Flow :=
  (flow.addStep call.vocabulary call.node call.word).2

/-- The flow after a run of calls. -/
def grow (calls : List Addition) (flow : Flow) : Flow :=
  calls.foldl (fun flow call => flow.after call) flow

/-- What a call does. It either leaves the nodes as they are, or puts a new step into one of them,
with the name that the counter is at. -/
theorem after_cases (call : Addition) (flow : Flow) :
    (∃ names, flow.after call = { flow with names := names } ∧ flow.names.last ≤ names.last ∧
        ∀ number, flow.names.last < number → number ≤ names.last →
          StepNames.nameOf number ∈ flow.steps.map Step.name) ∨
      ∃ kind index names, index < flow.nodes.length ∧
        flow.after call =
          { flow with
            nodes := flow.nodes.modify index
              (Node.addStep (.new kind (StepNames.nameOf names.last)))
            names := names } ∧
        flow.names.last < names.last ∧
        StepNames.nameOf names.last ∉ flow.steps.map Step.name ∧
        ∀ number, flow.names.last < number → number < names.last →
          StepNames.nameOf number ∈ flow.steps.map Step.name := by
  have unchanged : ∀ number, flow.names.last < number → number ≤ flow.names.last →
      StepNames.nameOf number ∈ flow.steps.map Step.name :=
    fun number above upTo => absurd above (UInt64.not_lt.mpr upTo)
  unfold after
  rcases addStep_cases call.vocabulary call.node call.word flow with
    ⟨_, outcome⟩ | ⟨index, found, ⟨_, outcome⟩ | ⟨kind, _, rest⟩⟩
  · rw [outcome]
    exact Or.inl ⟨flow.names, rfl, UInt64.le_refl _, unchanged⟩
  · rw [outcome]
    exact Or.inl ⟨flow.names, rfl, UInt64.le_refl _, unchanged⟩
  · rcases rest with ⟨taken, outcome⟩ | ⟨number, next, outcome⟩
    · rw [outcome]
      exact Or.inl ⟨⟨StepNames.greatest⟩, rfl, StepNames.le_greatest _,
        fun number above _ => taken number above⟩
    · rw [outcome]
      have inBounds := (List.findIdx?_eq_some_iff_getElem.mp found).1
      exact Or.inr ⟨kind, index, ⟨number⟩, inBounds, rfl, next.above, next.free, next.first⟩

theorem names_modify (step : Step) {nodes : List Node} {index : Nat}
    (inBounds : index < nodes.length) :
    (nodes.modify index (Node.addStep step)).map (·.name) = nodes.map (·.name) := by
  obtain ⟨before, node, behind, split, _, modified⟩ :=
    List.exists_of_modify (Node.addStep step) inBounds
  rw [modified, split, List.map_append, List.map_append, List.map_cons, List.map_cons]
  rfl

theorem flatMap_modify_perm (step : Step) {nodes : List Node} {index : Nat}
    (inBounds : index < nodes.length) :
    ((nodes.modify index (Node.addStep step)).flatMap (·.steps)).Perm
      (nodes.flatMap (·.steps) ++ [step]) := by
  obtain ⟨before, node, behind, split, _, modified⟩ :=
    List.exists_of_modify (Node.addStep step) inBounds
  rw [modified, split]
  simp only [List.flatMap_append, List.flatMap_cons, Node.addStep, List.append_assoc]
  exact (List.perm_append_comm.append_left node.steps).append_left _

/-- What adding steps does to a flow: the names that it had stay, and those that are new are the
counter's next ones, none of which is passed over without being there. -/
structure Grows (flow after : Flow) : Prop where
  nodes : after.nodes.map (·.name) = flow.nodes.map (·.name)
  later : flow.names.last ≤ after.names.last
  kept : flow.stepNames ⊆ after.stepNames
  added : ∀ name ∈ after.stepNames, name ∈ flow.stepNames ∨
    ∃ number, flow.names.last < number ∧ name = StepNames.nameOf number
  passed : ∀ number, flow.names.last < number → number ≤ after.names.last →
    StepNames.nameOf number ∈ after.stepNames
  buried : after.buriedNames.Perm flow.buriedNames
  distinct : flow.stepNames.Nodup → after.stepNames.Nodup

theorem Grows.refl (flow : Flow) : Grows flow flow where
  nodes := rfl
  later := UInt64.le_refl _
  kept := List.Subset.refl _
  added _ member := Or.inl member
  passed _ above upTo := absurd above (UInt64.not_lt.mpr upTo)
  buried := List.Perm.refl _
  distinct distinct := distinct

theorem Grows.trans {first second third : Flow} (once : Grows first second)
    (again : Grows second third) : Grows first third where
  nodes := again.nodes.trans once.nodes
  later := UInt64.le_trans once.later again.later
  kept := List.Subset.trans once.kept again.kept
  added name member := by
    rcases again.added name member with before | ⟨number, above, isNew⟩
    · exact once.added name before
    · exact Or.inr ⟨number, UInt64.lt_of_le_of_lt once.later above, isNew⟩
  passed number above upTo := by
    by_cases early : number ≤ second.names.last
    · exact again.kept (once.passed number above early)
    · exact again.passed number (UInt64.not_le.mp early) upTo
  buried := again.buried.trans once.buried
  distinct distinct := again.distinct (once.distinct distinct)

/-- Adding a step to a node adds its name, and buries nothing. -/
theorem stepNames_modify_perm (flow : Flow) (names : StepNames) {index : Nat}
    (inBounds : index < flow.nodes.length) (kind : StepKind) {name : String} (named : name ≠ "") :
    ({ flow with
        nodes := flow.nodes.modify index (Node.addStep (.new kind name))
        names := names } : Flow).stepNames.Perm (flow.stepNames ++ [name]) := by
  have top := flatMap_modify_perm (.new kind name) inBounds
  have steps := top.flatMap_right Step.withPrompts
  rw [List.flatMap_append, List.flatMap_singleton, Step.withPrompts_new] at steps
  have added : Step.namesOf [.new kind name] = [name] := by
    simp [Step.namesOf, Step.name_new, named]
  have perm := Step.namesOf_perm steps
  rw [Step.namesOf_append, added] at perm
  exact perm

theorem buriedNames_modify_perm (flow : Flow) (names : StepNames) {index : Nat}
    (inBounds : index < flow.nodes.length) (kind : StepKind) (name : String) :
    ({ flow with
        nodes := flow.nodes.modify index (Node.addStep (.new kind name))
        names := names } : Flow).buriedNames.Perm flow.buriedNames := by
  have top := flatMap_modify_perm (.new kind name) inBounds
  have steps := top.flatMap_right Step.buried
  rw [List.flatMap_append, List.flatMap_singleton, Step.buried_new, List.append_nil] at steps
  exact Step.namesOf_perm steps

/-- **One call grows the flow**, whether it adds a step or fails. -/
theorem grows_after (call : Addition) (flow : Flow) : Grows flow (flow.after call) := by
  rcases after_cases call flow with
    ⟨names, eq, later, passed⟩ | ⟨kind, index, names, inBounds, eq, later, fresh, passed⟩
  · rw [eq]
    exact
      { Grows.refl flow with
        later := later
        passed := fun number above upTo =>
          (flow.mem_stepNames (StepNames.nameOf_ne_empty number)).mpr (passed number above upTo) }
  · have named := StepNames.nameOf_ne_empty names.last
    have perm := flow.stepNames_modify_perm names inBounds kind named
    have unused := mt (flow.mem_stepNames named).mp fresh
    rw [eq]
    refine ⟨?_, UInt64.le_of_lt later, ?_, ?_, ?_, ?_, ?_⟩
    · exact names_modify _ inBounds
    · exact fun name member => perm.symm.subset (List.mem_append_left _ member)
    · intro name member
      rcases List.mem_append.mp (perm.subset member) with before | isNew
      · exact Or.inl before
      · exact Or.inr ⟨names.last, later, List.mem_singleton.mp isNew⟩
    · intro number above upTo
      refine perm.symm.subset (List.mem_append.mpr ?_)
      by_cases isLast : number = names.last
      · exact Or.inr (List.mem_singleton.mpr (isLast ▸ rfl))
      · have below : number < names.last := UInt64.lt_of_le_of_ne upTo isLast
        exact Or.inl ((flow.mem_stepNames (StepNames.nameOf_ne_empty number)).mpr
          (passed number above below))
    · exact flow.buriedNames_modify_perm names inBounds kind _
    · intro distinct
      rw [perm.nodup_iff, List.nodup_append']
      exact ⟨distinct, List.nodup_singleton _, List.disjoint_singleton.mpr unused⟩

/-- **A run of calls grows the flow**, by induction on the run. -/
theorem grows_grow (calls : List Addition) (flow : Flow) : Grows flow (flow.grow calls) := by
  induction calls generalizing flow with
  | nil => exact .refl flow
  | cons call rest ih => exact (grows_after call flow).trans (ih (flow.after call))

/-! ### Which names can meet -/

/-- A call for a node that is there moves the counter on, as long as a name is left. -/
theorem last_lt_after {node : String} {flow : Flow} (isNode : node ∈ flow.nodes.map (·.name))
    (some : flow.names.left ≠ 0) :
    flow.names.last < (flow.after ⟨.standard, node, StepKind.say.word⟩).names.last := by
  have drawn := StepNames.last_lt_drawFree (flow.steps.map Step.name) some
  unfold after addStep
  cases found : flow.nodes.findIdx? (·.name == node) with
  | none =>
    obtain ⟨holder, member, named⟩ := List.mem_map.mp isNode
    have absent := List.findIdx?_eq_none_iff.mp found holder member
    simp [named] at absent
  | some index =>
    have known : Vocabulary.standard.kindOf StepKind.say.word = .ok .say := rfl
    simp only [known]
    rcases outcome : StepNames.drawFree (flow.steps.map Step.name) flow.names.left flow.names with
      ⟨_ | _, names⟩
    · rw [outcome] at drawn
      exact drawn
    · rw [outcome] at drawn
      exact drawn

/-- Enough calls take the counter to any number, once there is a node. -/
theorem exists_grow_reaching {node : String} (number : UInt64) (flow : Flow)
    (isNode : node ∈ flow.nodes.map (·.name)) :
    ∃ calls, number ≤ (flow.grow calls).names.last := by
  by_cases reached : number ≤ flow.names.last
  · exact ⟨[], reached⟩
  · have above : flow.names.last < number := UInt64.not_le.mp reached
    have some : flow.names.left ≠ 0 := fun none =>
      (StepNames.left_eq_zero_iff flow.names).mp none number above
    have further := last_lt_after isNode some
    have isNode' : node ∈ (flow.after ⟨.standard, node, StepKind.say.word⟩).nodes.map (·.name) := by
      rw [(grows_after _ flow).nodes]
      exact isNode
    obtain ⟨calls, reaches⟩ := exists_grow_reaching number (flow.after _) isNode'
    exact ⟨⟨.standard, node, StepKind.say.word⟩ :: calls, reaches⟩
termination_by number.toNat - flow.names.last.toNat
decreasing_by
  rw [UInt64.lt_iff_toNat_lt] at above further
  omega

theorem nodup_allStepNames_iff {flow : Flow} (distinct : flow.stepNames.Nodup) :
    flow.allStepNames.Nodup ↔
      flow.buriedNames.Nodup ∧ flow.stepNames.Disjoint flow.buriedNames := by
  rw [flow.allStepNames_perm.nodup_iff, List.nodup_append']
  exact and_iff_right distinct

/-- **Which loaded flows keep all their names distinct.** However steps are added to a loaded flow,
the names of steps and of their prompts stay distinct. The names of prompts of prompts take part
exactly when they are distinct, are not among the others, and cannot be drawn any more. -/
theorem nodup_allStepNames_grow_iff {vocabulary : Vocabulary} {stored : Json} {flow : Flow}
    (loaded : load vocabulary stored = .ok flow) :
    (∀ calls, (flow.grow calls).stepNames.Nodup) ∧
      ((∀ calls, (flow.grow calls).allStepNames.Nodup) ↔
        flow.buriedNames.Nodup ∧ flow.stepNames.Disjoint flow.buriedNames ∧
          ∀ number, flow.names.last < number → StepNames.nameOf number ∉ flow.buriedNames) := by
  have distinct : ∀ calls, (flow.grow calls).stepNames.Nodup :=
    fun calls => (grows_grow calls flow).distinct (nodup_stepNames_of_load loaded)
  refine ⟨distinct, ?_, ?_⟩
  · intro always
    have atFirst := (nodup_allStepNames_iff (distinct [])).mp (always [])
    refine ⟨atFirst.1, atFirst.2, fun number above isBuried => ?_⟩
    -- A buried step lies in some node, and calls for that node can draw its name.
    obtain ⟨_, buriedStep, member, _⟩ := Step.mem_namesOf.mp isBuried
    obtain ⟨top, isTop, _⟩ := List.mem_flatMap.mp member
    obtain ⟨node, isNode, _⟩ := List.mem_flatMap.mp isTop
    obtain ⟨calls, reaches⟩ :=
      exists_grow_reaching number flow (List.mem_map_of_mem (f := (·.name)) isNode)
    have grows := grows_grow calls flow
    have disjoint := ((nodup_allStepNames_iff (distinct calls)).mp (always calls)).2
    exact disjoint (grows.passed number above reaches) (grows.buried.symm.subset isBuried)
  · rintro ⟨buriedDistinct, disjoint, undrawn⟩ calls
    have grows := grows_grow calls flow
    refine (nodup_allStepNames_iff (distinct calls)).mpr
      ⟨grows.buried.nodup_iff.mpr buriedDistinct, ?_⟩
    intro name isVisited isBuried
    have wasBuried := grows.buried.subset isBuried
    rcases grows.added name isVisited with before | ⟨number, above, rfl⟩
    · exact disjoint before wasBuried
    · exact undrawn number above wasBuried

/-- A stored flow with two steps of one name, one of them a prompt of a prompt. -/
def storedTwins : Json :=
  let say : Json := .obj [("kind", .str "say"), ("name", .str "twin")]
  let menu (name : String) (prompts : List Json) : Json :=
    .obj [("kind", .str "gather"), ("name", .str name), ("steps", .arr prompts)]
  .obj [("nodes", .arr [.obj [("name", .str "main"),
    ("steps", .arr [menu "outer" [menu "inner" [say]], say])]])]

/-- The flow with the twins, as it is loaded. -/
def twins : Flow where
  header := .new
  nodes :=
    let say := Step.new .say "twin"
    let menu (name : String) (prompts : List Step) : Step :=
      .gather (.new .gather name) Gather.new.normalize prompts
    [⟨"main", "", "voice", .obj [], [menu "outer" [menu "inner" [say.normalize]], say.normalize]⟩]
  names := .start

/-- The twins are loaded, and their names are never distinct. -/
theorem not_nodup_allStepNames_twins :
    load .standard storedTwins = .ok twins ∧ twins.stepNames = ["outer", "inner", "twin"] ∧
      twins.buriedNames = ["twin"] ∧ ¬ ∀ calls, (twins.grow calls).allStepNames.Nodup := by
  have loaded : load .standard storedTwins = .ok twins := rfl
  have condition := (nodup_allStepNames_grow_iff loaded).2
  refine ⟨loaded, by decide, by decide, fun always => ?_⟩
  have disjoint := (condition.mp always).2.1
  exact disjoint (a := "twin") (by decide) (by decide)

end Flow

end IvrFlow
