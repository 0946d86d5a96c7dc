import IvrFlow.Proofs.StepNames

/-!
Adding a step to a flow. `addStep_cases` says what a call can do, and `addStep_iff` when it does
which: the new step gets the first free name above the counter and the last place of the first node
that has the name asked for, and nothing else of the flow changes but the counter. A call that fails
changes nothing but the counter, and that only when names are left but all are taken
(`addStep_failed`).
-/

namespace IvrFlow.Flow

/-! ### The place and the name of a new step -/

/-- The nodes with a step put at the end of the first of them that has a name. -/
def Appended (node : String) (step : Step) (nodes after : List Node) : Prop :=
  ∃ before target behind, nodes = before ++ target :: behind ∧
    (∀ other ∈ before, other.name ≠ node) ∧ target.name = node ∧
    after = before ++ { target with steps := target.steps ++ [step] } :: behind

/-- The number of the first name above the counter that no step has. Steps and their own prompts are
looked at. -/
structure NextFree (flow : Flow) (number : UInt64) : Prop where
  above : flow.names.last < number
  free : StepNames.nameOf number ∉ flow.steps.map Step.name
  first : ∀ earlier, flow.names.last < earlier → earlier < number →
    StepNames.nameOf earlier ∈ flow.steps.map Step.name

theorem NextFree.unique {flow : Flow} {number other : UInt64} (next : flow.NextFree number)
    (nextToo : flow.NextFree other) : number = other := by
  rcases UInt64.lt_or_eq_of_le (UInt64.not_lt.mp fun later : other < number =>
    nextToo.free (next.first other nextToo.above later)) with earlier | same
  · exact absurd (nextToo.first number next.above earlier) next.free
  · exact same

/-- The first node with a name is the one whose position is found. -/
theorem appended_iff {node : String} {nodes after : List Node} {index : Nat} (step : Step)
    (found : nodes.findIdx? (·.name == node) = some index) :
    Appended node step nodes after ↔ after = nodes.modify index (Node.addStep step) := by
  obtain ⟨inBounds, named, unnamed⟩ := List.findIdx?_eq_some_iff_getElem.mp found
  obtain ⟨before, target, behind, split, isIndex, modified⟩ :=
    List.exists_of_modify (Node.addStep step) inBounds
  constructor
  · rintro ⟨others, first, rest, splitToo, noOther, isNode, rfl⟩
    have length : others.length = index := by
      have none : others.findIdx? (·.name == node) = none :=
        List.findIdx?_eq_none_iff.mpr fun other member =>
          beq_eq_false_iff_ne.mpr (noOther other member)
      rw [splitToo, List.findIdx?_append, none, Option.none_or, List.findIdx?_cons,
        if_pos (beq_iff_eq.mpr isNode)] at found
      simpa using found
    obtain ⟨rfl, same⟩ := List.append_inj (split.symm.trans splitToo) (isIndex.trans length.symm)
    obtain ⟨rfl, rfl⟩ := List.cons.inj same
    exact modified.symm
  · rintro rfl
    refine ⟨before, target, behind, split, fun other member isNode => ?_, ?_, modified⟩
    · obtain ⟨position, isBefore, rfl⟩ := List.getElem_of_mem member
      refine unnamed position (isIndex ▸ isBefore) (beq_iff_eq.mpr ?_)
      simpa [split, List.getElem_append_left isBefore] using isNode
    · have target : nodes[index].name = target.name := by simp [split, ← isIndex]
      rw [← target]
      exact beq_iff_eq.mp named

/-- As long as some name above the counter is free, there is a first that is. -/
theorem exists_nextFree_iff {flow : Flow} :
    (∃ number, flow.NextFree number) ↔ ∃ number, flow.names.last < number ∧
      StepNames.nameOf number ∉ flow.steps.map Step.name := by
  constructor
  · rintro ⟨number, next⟩
    exact ⟨number, next.above, next.free⟩
  · rintro ⟨number, above, free⟩
    rcases StepNames.drawFree_left_cases (flow.steps.map Step.name) flow.names with
      ⟨_, taken⟩ | ⟨least, _, later, unused, first⟩
    · exact absurd (taken number above) free
    · exact ⟨least, later, unused, first⟩

/-! ### What a call does -/

/-- What a call that adds a step can do. It finds no such node, or no such kind, or no free name; or
it adds the step. -/
theorem addStep_cases (vocabulary : Vocabulary) (node word : String) (flow : Flow) :
    (flow.nodes.findIdx? (·.name == node) = none ∧
        flow.addStep vocabulary node word = (.error (.unknownNode node), flow)) ∨
      ∃ index, flow.nodes.findIdx? (·.name == node) = some index ∧
        ((vocabulary.kindOf? word = none ∧
            flow.addStep vocabulary node word = (.error (.step (.unknownKind word)), flow)) ∨
          ∃ kind, vocabulary.kindOf? word = some kind ∧
            (((∀ number, flow.names.last < number →
                  StepNames.nameOf number ∈ flow.steps.map Step.name) ∧
                flow.addStep vocabulary node word =
                  (.error (.step (.namesExhausted StepNames.greatest)),
                    { flow with names := ⟨StepNames.greatest⟩ })) ∨
              ∃ number, flow.NextFree number ∧
                flow.addStep vocabulary node word =
                  (.ok (.new kind (StepNames.nameOf number)),
                    { flow with
                      nodes := flow.nodes.modify index
                        (Node.addStep (.new kind (StepNames.nameOf number)))
                      names := ⟨number⟩ }))) := by
  unfold addStep
  cases found : flow.nodes.findIdx? (·.name == node) with
  | none => exact Or.inl ⟨rfl, rfl⟩
  | some index =>
    refine Or.inr ⟨index, rfl, ?_⟩
    cases known : vocabulary.kindOf? word with
    | none =>
      refine Or.inl ⟨rfl, ?_⟩
      simp only [Vocabulary.kindOf, known]
    | some kind =>
      refine Or.inr ⟨kind, rfl, ?_⟩
      simp only [Vocabulary.kindOf, known]
      rcases StepNames.drawFree_left_cases (flow.steps.map Step.name) flow.names with
        ⟨drawn, taken⟩ | ⟨number, drawn, above, free, first⟩
      · refine Or.inl ⟨taken, ?_⟩
        rw [drawn]
      · refine Or.inr ⟨number, ⟨above, free, first⟩, ?_⟩
        rw [drawn]

theorem findIdx?_eq_none_iff_notMem {node : String} {nodes : List Node} :
    nodes.findIdx? (·.name == node) = none ↔ node ∉ nodes.map (·.name) := by
  rw [List.findIdx?_eq_none_iff, List.mem_map]
  simp only [beq_eq_false_iff_ne, not_exists, not_and]

theorem mem_names_of_findIdx? {node : String} {nodes : List Node} {index : Nat}
    (found : nodes.findIdx? (·.name == node) = some index) : node ∈ nodes.map (·.name) := by
  refine Decidable.byContradiction fun absent => ?_
  rw [findIdx?_eq_none_iff_notMem.mpr absent] at found
  cases found

/-- A node that a step can be appended to has the name that is asked for. -/
theorem Appended.mem_names {node : String} {step : Step} {nodes after : List Node}
    (appended : Appended node step nodes after) : node ∈ nodes.map (·.name) := by
  obtain ⟨before, target, behind, rfl, _, named, _⟩ := appended
  exact List.mem_map.mpr
    ⟨target, List.mem_append_right before List.mem_cons_self, named⟩

section Outcome

variable {vocabulary : Vocabulary} {node word : String} {flow : Flow}

/-- What a call that succeeds gives. -/
theorem addStep_eq_ok_iff {step : Step} {after : Flow} :
    flow.addStep vocabulary node word = (.ok step, after) ↔
      ∃ kind number nodes, vocabulary.kindOf? word = some kind ∧ flow.NextFree number ∧
        step = .new kind (StepNames.nameOf number) ∧ Appended node step flow.nodes nodes ∧
        after = { flow with nodes := nodes, names := ⟨number⟩ } := by
  rcases addStep_cases vocabulary node word flow with
    ⟨absent, outcome⟩ | ⟨index, found, ⟨unknown, outcome⟩ | ⟨kind, known, rest⟩⟩
  · rw [outcome]
    refine iff_of_false (fun same => by cases same) ?_
    rintro ⟨_, _, _, _, _, _, appended, _⟩
    exact findIdx?_eq_none_iff_notMem.mp absent appended.mem_names
  · rw [outcome]
    refine iff_of_false (fun same => by cases same) ?_
    rintro ⟨_, _, _, known, _⟩
    cases unknown.symm.trans known
  · rcases rest with ⟨taken, outcome⟩ | ⟨number, next, outcome⟩
    · rw [outcome]
      refine iff_of_false (fun same => by cases same) ?_
      rintro ⟨_, number, _, _, next, _⟩
      exact next.free (taken number next.above)
    · rw [outcome]
      constructor
      · intro same
        cases same
        exact ⟨kind, number, _, known, next, rfl, (appended_iff _ found).mpr rfl, rfl⟩
      · rintro ⟨kindToo, numberToo, nodes, knownToo, nextToo, rfl, appended, rfl⟩
        cases known.symm.trans knownToo
        cases next.unique nextToo
        rw [(appended_iff _ found).mp appended]

/-- Which error a call gives. -/
theorem addStep_eq_error_iff {error : FlowError} :
    (flow.addStep vocabulary node word).1 = .error error ↔
      if node ∉ flow.nodes.map (·.name) then error = .unknownNode node
      else if vocabulary.knows word = false then error = .step (.unknownKind word)
      else
        error = .step (.namesExhausted StepNames.greatest) ∧
          ∀ number, flow.names.last < number →
            StepNames.nameOf number ∈ flow.steps.map Step.name := by
  rcases addStep_cases vocabulary node word flow with
    ⟨absent, outcome⟩ | ⟨index, found, ⟨unknown, outcome⟩ | ⟨kind, known, rest⟩⟩
  · rw [outcome, if_pos (findIdx?_eq_none_iff_notMem.mp absent), Except.error.injEq]
    exact eq_comm
  · have isNode := mem_names_of_findIdx? found
    have unknown : vocabulary.knows word = false := by rw [Vocabulary.knows, unknown]; rfl
    rw [outcome, if_neg (Decidable.not_not.mpr isNode), if_pos unknown, Except.error.injEq]
    exact eq_comm
  · have isNode := mem_names_of_findIdx? found
    have knows : ¬ vocabulary.knows word = false := by
      rw [Vocabulary.knows, known]
      exact Bool.noConfusion
    rw [if_neg (Decidable.not_not.mpr isNode), if_neg knows]
    rcases rest with ⟨taken, outcome⟩ | ⟨number, next, outcome⟩
    · rw [outcome, Except.error.injEq, and_iff_left taken]
      exact eq_comm
    · rw [outcome]
      refine iff_of_false (fun same => by cases same) ?_
      rintro ⟨_, taken⟩
      exact next.free (taken number next.above)

/-- When a call succeeds. -/
theorem exists_addStep_eq_ok_iff :
    (∃ step after, flow.addStep vocabulary node word = (.ok step, after)) ↔
      node ∈ flow.nodes.map (·.name) ∧ vocabulary.knows word = true ∧
        ∃ number, flow.names.last < number ∧
          StepNames.nameOf number ∉ flow.steps.map Step.name := by
  rw [← exists_nextFree_iff, Vocabulary.knows, Option.isSome_iff_exists]
  constructor
  · rintro ⟨step, after, added⟩
    obtain ⟨kind, number, nodes, known, next, _, appended, _⟩ := addStep_eq_ok_iff.mp added
    exact ⟨appended.mem_names, ⟨kind, known⟩, number, next⟩
  · rintro ⟨isNode, ⟨kind, known⟩, number, next⟩
    cases found : flow.nodes.findIdx? (·.name == node) with
    | none => exact absurd isNode (findIdx?_eq_none_iff_notMem.mp found)
    | some index =>
      exact ⟨_, _, addStep_eq_ok_iff.mpr
        ⟨kind, number, _, known, next, rfl, (appended_iff _ found).mpr rfl, rfl⟩⟩

end Outcome

/-- **What adding a step does.** A call succeeds exactly when there is a node with the name, the
word stands for a kind, and a name above the counter is free. Then it adds the new step of the kind,
under the first such name, at the end of the first such node, and moves the counter to the number of
the name; all else stays. Otherwise it fails for the first of the three that is missing. -/
theorem addStep_outcome (vocabulary : Vocabulary) (node word : String) (flow : Flow) :
    ((∃ step after, flow.addStep vocabulary node word = (.ok step, after)) ↔
        node ∈ flow.nodes.map (·.name) ∧ vocabulary.knows word = true ∧
          ∃ number, flow.names.last < number ∧
            StepNames.nameOf number ∉ flow.steps.map Step.name) ∧
      (∀ step after, flow.addStep vocabulary node word = (.ok step, after) ↔
        ∃ kind number nodes, vocabulary.kindOf? word = some kind ∧ flow.NextFree number ∧
          step = .new kind (StepNames.nameOf number) ∧ Appended node step flow.nodes nodes ∧
          after = { flow with nodes := nodes, names := ⟨number⟩ }) ∧
      ∀ error, (flow.addStep vocabulary node word).1 = .error error ↔
        if node ∉ flow.nodes.map (·.name) then error = .unknownNode node
        else if vocabulary.knows word = false then error = .step (.unknownKind word)
        else
          error = .step (.namesExhausted StepNames.greatest) ∧
            ∀ number, flow.names.last < number →
              StepNames.nameOf number ∈ flow.steps.map Step.name :=
  ⟨exists_addStep_eq_ok_iff, fun _ _ => addStep_eq_ok_iff, fun _ => addStep_eq_error_iff⟩

/-- A stale counter: the first name above it is that of a prompt, and the second is free. -/
example :
    let menu : Step := .gather (.new .gather "ask") .new [.new .say "step1"]
    let flow : Flow := ⟨.new, [⟨"main", "", "voice", .obj [], [menu]⟩], .start⟩
    flow.addStep .standard "main" "pause" =
      (.ok (.new .pause "step2"),
        ⟨.new, [⟨"main", "", "voice", .obj [], [menu, .new .pause "step2"]⟩], ⟨2⟩⟩) := rfl

/-! ### A call that fails -/

/-- The canonical form of a flow shows its counter. -/
theorem canonical_with_names_iff (flow : Flow) (names : StepNames) :
    { flow with names := names }.canonical = flow.canonical ↔ names = flow.names := by
  constructor
  · intro same
    simp only [canonical, Codec.natural, Json.obj.injEq, List.cons.injEq, Prod.mk.injEq,
      Json.num.injEq, Number.natural.injEq, true_and, and_true] at same
    exact congrArg StepNames.mk same
  · rintro rfl
    rfl

/-- **What a call that fails leaves behind.** The header and the nodes stay. The flow stays as a
whole, and so does its canonical form, unless the call has passed over names before it found that all
were taken: then the counter is left at its end. -/
theorem addStep_failed {vocabulary : Vocabulary} {node word : String} {flow after : Flow}
    {error : FlowError} (failed : flow.addStep vocabulary node word = (.error error, after)) :
    after.header = flow.header ∧ after.nodes = flow.nodes ∧
      (after.canonical = flow.canonical ↔ after = flow) ∧
      (after = flow ↔ (error = .step (.namesExhausted StepNames.greatest) → flow.names.left = 0)) ∧
      (after ≠ flow → after.names = ⟨StepNames.greatest⟩) := by
  rcases addStep_cases vocabulary node word flow with
    ⟨_, outcome⟩ | ⟨index, _, ⟨_, outcome⟩ | ⟨kind, _, ⟨_, outcome⟩ | ⟨number, _, outcome⟩⟩⟩
  · rw [outcome] at failed
    cases failed
    exact ⟨rfl, rfl, iff_of_true rfl rfl, iff_of_true rfl nofun, fun changed => absurd rfl changed⟩
  · rw [outcome] at failed
    cases failed
    exact ⟨rfl, rfl, iff_of_true rfl rfl, iff_of_true rfl nofun, fun changed => absurd rfl changed⟩
  · rw [outcome] at failed
    cases failed
    have unchanged : { flow with names := ⟨StepNames.greatest⟩ } = flow ↔
        (⟨StepNames.greatest⟩ : StepNames) = flow.names := by
      constructor
      · intro same
        exact congrArg Flow.names same
      · intro same
        rw [same]
    refine ⟨rfl, rfl, (canonical_with_names_iff flow _).trans unchanged.symm, ?_, fun _ => rfl⟩
    rw [unchanged]
    constructor
    · intro atEnd _
      rw [← atEnd]
      rfl
    · intro none
      exact (congrArg StepNames.mk (StepNames.last_eq_greatest (none rfl))).symm
  · rw [outcome] at failed
    cases failed

/-- A flow with one name left, which is taken. -/
def spent : Flow :=
  ⟨.new, [{ Node.new "main" "" with steps := [.new .say "step18446744073709551615"] }],
    ⟨18446744073709551614⟩⟩

/-- A call fails there, and the flow is stored with another counter than before. -/
theorem addStep_failed_spent :
    ∃ after, spent.addStep .standard "main" "say" =
        (.error (.step (.namesExhausted StepNames.greatest)), after) ∧
      after.canonical ≠ spent.canonical ∧ after.names = ⟨StepNames.greatest⟩ := by
  have failed : spent.addStep .standard "main" "say" =
      (.error (.step (.namesExhausted StepNames.greatest)),
        { spent with names := ⟨StepNames.greatest⟩ }) := rfl
  obtain ⟨_, _, stored, kept, atEnd⟩ := addStep_failed failed
  have changed : ({ spent with names := ⟨StepNames.greatest⟩ } : Flow) ≠ spent := by
    intro same
    have none : spent.names.left = 0 := kept.mp same rfl
    cases none
  exact ⟨_, failed, mt stored.mp changed, atEnd changed⟩

end IvrFlow.Flow
