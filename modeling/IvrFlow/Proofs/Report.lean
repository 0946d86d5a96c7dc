import IvrFlow.Proofs.Command

/-!
What `check` says about routing. It counts the steps of the nodes and their prompts, but it checks
the steps of the nodes alone: a call among the prompts of a gather step that cannot route is counted
and goes without a warning (`check_warns_of_topSteps`).
-/

namespace IvrFlow

/-! ### Routing errors -/

/-- Why a step cannot route on the response to its call. A step that makes none has nothing to
route on. -/
def Step.routingError? (step : Step) : Option StepError := do
  match (← step.service?).checkRouting step.name with
  | .ok () => none
  | .error error => some error

theorem Step.routingError?_eq_none_iff {step : Step} :
    step.routingError? = none ↔
      ∀ service, step.service? = some service → service.checkRouting step.name = .ok () := by
  unfold routingError?
  cases step.service? with
  | none => simp
  | some service => cases checked : service.checkRouting step.name <;> simp [checked]

namespace Flow

/-- Why some steps cannot route, in their order. -/
def routingErrors (steps : List Step) : List StepError := steps.filterMap Step.routingError?

/-- The prompts of the steps of the nodes, in order. -/
def prompts (flow : Flow) : List Step := flow.topSteps.flatMap Step.prompts

/-- The counted steps are those of the nodes and their prompts. -/
theorem steps_perm (flow : Flow) : flow.steps.Perm (flow.topSteps ++ flow.prompts) := by
  have regrouped := List.flatMap_append_perm flow.topSteps (fun step => [step]) Step.prompts
  rw [List.flatMap_singleton'] at regrouped
  exact regrouped.symm

theorem topSteps_sublist (flow : Flow) : flow.topSteps.Sublist flow.steps := by
  have each (steps : List Step) : steps.Sublist (steps.flatMap Step.withPrompts) := by
    induction steps with
    | nil => exact .slnil
    | cons step rest ih =>
      rw [List.flatMap_cons]
      exact (ih.trans (List.sublist_append_right step.prompts _)).cons_cons step
  exact each flow.topSteps

theorem routingErrors_perm (flow : Flow) :
    (routingErrors flow.steps).Perm
      (routingErrors flow.topSteps ++ routingErrors flow.prompts) := by
  have perm := flow.steps_perm.filterMap Step.routingError?
  rwa [List.filterMap_append] at perm

/-- The steps of the nodes have as many routing errors as all that are counted only if the prompts
have none. -/
theorem length_routingErrors_eq_iff (flow : Flow) :
    (routingErrors flow.topSteps).length = (routingErrors flow.steps).length ↔
      routingErrors flow.prompts = [] := by
  rw [flow.routingErrors_perm.length_eq, List.length_append, Nat.left_eq_add,
    List.length_eq_zero_iff]

theorem routingErrors_prompts_eq_nil_iff (flow : Flow) :
    routingErrors flow.prompts = [] ↔ ∀ step ∈ flow.topSteps, ∀ prompt ∈ step.prompts,
      ∀ service, prompt.service? = some service → service.checkRouting prompt.name = .ok () := by
  simp only [routingErrors, prompts, List.filterMap_eq_nil_iff, List.forall_mem_flatMap,
    Step.routingError?_eq_none_iff]

end Flow

/-! ### Reports -/

namespace Report

/-- What stands in a report before the number of steps. -/
def opening (path elapsed : String) (flow : Flow) : List String :=
  ["Flow '" ++ path ++ "' loaded in " ++ elapsed] ++
  (flow.header.startNodeName.map ("Start node: " ++ ·)).toList ++
  ["Last step id: " ++ toString flow.names.last.toNat] ++
  flow.nodes.flatMap nodeLines ++
  ["", "--- Summary ---", "Nodes: " ++ toString flow.nodes.length]

/-- The report on a flow that warns of some routing errors. -/
def textWith (path elapsed : String) (flow : Flow) (errors : List StepError) : String :=
  String.join ((opening path elapsed flow ++
    ["Steps: " ++ toString flow.steps.length, "Routing warnings: " ++ toString errors.length] ++
    errors.map ("  -> " ++ ·.message)).map (· ++ "\n"))

theorem warnings_eq (flow : Flow) :
    warnings flow = (Flow.routingErrors flow.topSteps).map StepError.message := by
  have each : warning? = fun step => step.routingError?.map StepError.message := by
    funext step
    unfold warning? Step.routingError?
    cases step.service? with
    | none => rfl
    | some service => cases checked : service.checkRouting step.name <;> simp [checked]
  rw [warnings, Flow.routingErrors, List.map_filterMap, each]

theorem text_eq (path elapsed : String) (flow : Flow) :
    text path elapsed flow = textWith path elapsed flow (Flow.routingErrors flow.topSteps) := by
  rw [text, lines, warnings_eq, textWith, opening]
  simp [List.append_assoc, Function.comp_def]

/-- In a report the number of warnings comes behind what does not depend on them, and a line ends
behind it. -/
theorem exists_toList_textWith (path elapsed : String) (flow : Flow) :
    ∃ start, ∀ errors, ∃ rest, (textWith path elapsed flow errors).toList =
      start ++ (Nat.toDigits 10 errors.length ++ '\n' :: rest) := by
  refine ⟨((opening path elapsed flow ++ ["Steps: " ++ toString flow.steps.length]).map
    (· ++ "\n")).flatMap String.toList ++ "Routing warnings: ".toList, fun errors =>
    ⟨((errors.map ("  -> " ++ ·.message)).map (· ++ "\n")).flatMap String.toList, ?_⟩⟩
  rw [textWith, String.toList_join]
  simp

/-- The number of warnings can be read off a report. -/
theorem length_eq_of_textWith_eq {path elapsed : String} {flow : Flow}
    {errors others : List StepError}
    (same : textWith path elapsed flow errors = textWith path elapsed flow others) :
    errors.length = others.length := by
  obtain ⟨start, shows⟩ := exists_toList_textWith path elapsed flow
  obtain ⟨rest, text⟩ := shows errors
  obtain ⟨restToo, textToo⟩ := shows others
  have behind : Nat.toDigits 10 errors.length ++ '\n' :: rest =
      Nat.toDigits 10 others.length ++ '\n' :: restToo :=
    List.append_cancel_left (text.symm.trans (same ▸ textToo))
  -- Step names in the warnings may hold anything, but the digits end with their line.
  have read (number : Nat) (rest : List Char) :
      (Nat.toDigits 10 number ++ '\n' :: rest).takeWhile Char.isDigit = Nat.toDigits 10 number := by
    rw [Json.takeWhile_isDigit_append (Json.stops_cons (by decide) rest),
      List.takeWhile_eq_self_iff]
    exact fun _ isDigit => Nat.isDigit_of_mem_toDigits (by decide) (by decide) isDigit
  have digits : Nat.toDigits 10 errors.length = Nat.toDigits 10 others.length := by
    rw [← read errors.length rest, behind, read]
  calc errors.length
      = Nat.ofDigitChars 10 (Nat.toDigits 10 errors.length) 0 :=
        Nat.ofDigitChars_ten_toDigits.symm
    _ = Nat.ofDigitChars 10 (Nat.toDigits 10 others.length) 0 := by rw [digits]
    _ = others.length := Nat.ofDigitChars_ten_toDigits

end Report

namespace Invocation

/-- **What `check` warns of.** For a document that is loaded as a flow, `check` prints the routing
errors of the steps of its nodes, in order, and their number. They are among those of the counted
steps, and what is missing are those of prompts. So `check` reports on all routing errors of the
steps that it counts exactly if every call among the prompts can route. -/
theorem check_warns_of_topSteps {invocation : Invocation} {path elapsed document : String}
    {flow : Flow} (asked : invocation.command = .check path)
    (loaded : Flow.parse invocation.vocabulary document = .ok flow) :
    invocation.runOn elapsed document =
        .success (Report.textWith path elapsed flow (Flow.routingErrors flow.topSteps)) ∧
      (Flow.routingErrors flow.topSteps).Sublist (Flow.routingErrors flow.steps) ∧
      (Flow.routingErrors flow.steps).Perm
        (Flow.routingErrors flow.topSteps ++ Flow.routingErrors flow.prompts) ∧
      (invocation.runOn elapsed document =
          .success (Report.textWith path elapsed flow (Flow.routingErrors flow.steps)) ↔
        ∀ step ∈ flow.topSteps, ∀ prompt ∈ step.prompts, ∀ service,
          prompt.service? = some service → service.checkRouting prompt.name = .ok ()) := by
  have outcome : invocation.runOn elapsed document =
      .success (Report.textWith path elapsed flow (Flow.routingErrors flow.topSteps)) := by
    simp only [runOn, asked, loaded, Report.text_eq]
  have sublist := flow.topSteps_sublist.filterMap Step.routingError?
  refine ⟨outcome, sublist, flow.routingErrors_perm, ?_⟩
  rw [← flow.routingErrors_prompts_eq_nil_iff, ← flow.length_routingErrors_eq_iff, outcome]
  constructor
  · exact fun same => Report.length_eq_of_textWith_eq (congrArg Outcome.stdout same)
  · intro length
    have same : Flow.routingErrors flow.topSteps = Flow.routingErrors flow.steps :=
      sublist.eq_of_length length
    rw [same]

/-- A stored call that should route, but to no step. -/
def storedStray : Json := .obj [("doRouting", .bool true), ("kind", .str "externalService")]

/-- A stored flow with a gather step that has the call as its prompt. -/
def storedUnrouted : Json :=
  .obj [("nodes", .arr [.obj [("steps",
    .arr [.obj [("kind", .str "gather"), ("steps", .arr [storedStray])]])]])]

/-- The flow with the gather step and the call. -/
def unrouted : Flow :=
  ⟨.new, [{ Node.new "" "" with steps := [.gather (.new .gather "") Gather.new.normalize
    [.act (.new .externalService "") (.externalService { Service.new with doRouting := true })]] }],
    ⟨0⟩⟩

theorem throughout_storedUnrouted {property : Json → Prop} (granted : Json.Granted property) :
    storedUnrouted.Throughout property := by
  have call : storedStray.Throughout property := by
    refine granted.obj (List.pairwise_pair.mpr (by decide : "doRouting" < "kind")) ?_
    exact List.forall_mem_cons.mpr
      ⟨granted.bool true, List.forall_mem_singleton.mpr (granted.str "externalService")⟩
  have listed {stored : Json} (throughout : stored.Throughout property) :
      (Json.arr [stored]).Throughout property :=
    granted.arr (List.forall_mem_singleton.mpr throughout)
  have held {key : String} {stored : Json} (throughout : stored.Throughout property) :
      (Json.obj [(key, stored)]).Throughout property :=
    granted.obj (List.pairwise_singleton _ _) (List.forall_mem_singleton.mpr throughout)
  refine held (listed (held (listed ?_)))
  refine granted.obj (List.pairwise_pair.mpr (by decide : "kind" < "steps")) ?_
  exact List.forall_mem_cons.mpr
    ⟨granted.str "gather", List.forall_mem_singleton.mpr (listed call)⟩

/-- The call is counted, and cannot route, but `check` does not warn of it. -/
theorem check_warns_of_topSteps_unrouted :
    let invocation : Invocation := ⟨.check "in.json", false⟩
    let document := storedUnrouted.prettyText ++ "\n"
    invocation.runOn "1ms" document = .success (Report.textWith "in.json" "1ms" unrouted []) ∧
      Flow.routingErrors unrouted.steps = [.incompleteRouting "" .noNext] ∧
      invocation.runOn "1ms" document ≠ .success (Report.textWith "in.json" "1ms" unrouted
        (Flow.routingErrors unrouted.steps)) := by
  intro invocation document
  have read : Json.parse document = .ok storedUnrouted :=
    (Json.parse_prettyText (throughout_storedUnrouted Json.granted_ordered)
      (throughout_storedUnrouted Json.granted_legible)).1 (by decide)
  have loaded : Flow.parse invocation.vocabulary document = .ok unrouted :=
    Flow.parse_eq_ok_iff.mpr ⟨storedUnrouted, read, rfl⟩
  obtain ⟨outcome, _, _, complete⟩ := check_warns_of_topSteps rfl loaded
  refine ⟨outcome, rfl, ?_⟩
  rw [ne_eq, complete]
  intro routes
  have routed := routes _ List.mem_cons_self _ List.mem_cons_self _ rfl
  cases routed

end Invocation

end IvrFlow
