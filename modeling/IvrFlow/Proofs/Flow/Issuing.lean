import IvrFlow.Proofs.Flow.Session

/-!
Names issued in the course of time. Between edits a flow may be saved and loaded again, as often as
one likes and with any vocabularies. The counter is stored and loaded with it, no edit takes it back,
and each new step gets a name above it (`counted_apply`); so the numbers of the names that are issued
only go up (`issued_increasing`), and no name is issued twice.
-/

namespace IvrFlow.Flow

/-! ### What happens to a flow -/

/-- An edit, or saving the flow and loading it again. -/
inductive Event where
  | edit (change : Edit)
  | reload (vocabulary : Vocabulary)

/-- The flow after an event. A flow that cannot be loaded again is kept. -/
def Event.apply (flow : Flow) : Event → Flow
  | .edit change => change.apply flow
  | .reload vocabulary =>
    match load vocabulary flow.canonical with
    | .ok again => again
    | .error _ => flow

/-- The new step that an event adds. -/
def Event.added (flow : Flow) : Event → Option Step
  | .edit (.addStep call) => (flow.addStep call.vocabulary call.node call.word).1.toOption
  | _ => none

/-- The flow after a course of events. -/
def live (events : List Event) (flow : Flow) : Flow := events.foldl Event.apply flow

/-- The names of the new steps that a course of events adds, in order. -/
def issued (flow : Flow) : List Event → List String
  | [] => []
  | event :: rest => ((event.added flow).map Step.name).toList ++ issued (event.apply flow) rest

theorem issued_append (flow : Flow) (events later : List Event) :
    flow.issued (events ++ later) = flow.issued events ++ (flow.live events).issued later := by
  induction events generalizing flow with
  | nil => rfl
  | cons event rest ih =>
    rw [List.cons_append, issued, issued, ih, List.append_assoc]
    rfl

/-! ### The counter -/

/-- A flow is loaded with the counter it was saved with. -/
theorem names_of_load_canonical {vocabulary : Vocabulary} {flow again : Flow}
    (loaded : load vocabulary flow.canonical = .ok again) : again.names = flow.names := by
  obtain ⟨raw, read, _, _, names, _⟩ := load_cases loaded
  rw [read_canonical] at read
  cases read
  exact names

/-- The numbers of the names that an event issues lie above the counter and not above what it is
afterwards, in rising order. -/
structure Counted (names : List String) (flow after : Flow) (numbers : List UInt64) : Prop where
  named : names = numbers.map StepNames.nameOf
  rising : numbers.Pairwise (· < ·)
  above : ∀ number ∈ numbers, flow.names.last < number
  upTo : ∀ number ∈ numbers, number ≤ after.names.last
  later : flow.names.last ≤ after.names.last

theorem Counted.none {flow after : Flow} (later : flow.names.last ≤ after.names.last) :
    Counted [] flow after [] where
  named := rfl
  rising := List.Pairwise.nil
  above := List.forall_mem_nil _
  upTo := List.forall_mem_nil _
  later := later

theorem Counted.append {first second third : Flow} {names others : List String}
    {numbers more : List UInt64} (once : Counted names first second numbers)
    (again : Counted others second third more) :
    Counted (names ++ others) first third (numbers ++ more) where
  named := by rw [once.named, again.named, List.map_append]
  rising := by
    refine List.pairwise_append.mpr ⟨once.rising, again.rising, ?_⟩
    intro number isNumber other isOther
    exact UInt64.lt_of_le_of_lt (once.upTo number isNumber) (again.above other isOther)
  above := by
    intro number isNumber
    rcases List.mem_append.mp isNumber with early | late
    · exact once.above number early
    · exact UInt64.lt_of_le_of_lt once.later (again.above number late)
  upTo := by
    intro number isNumber
    rcases List.mem_append.mp isNumber with early | late
    · exact UInt64.le_trans (once.upTo number early) again.later
    · exact again.upTo number late
  later := UInt64.le_trans once.later again.later

/-- Adding a step moves the counter to the number of the new name, and a call that fails does not
move it back. -/
theorem counted_addStep (call : Addition) (flow : Flow) :
    ∃ numbers, Counted (((Event.edit (.addStep call)).added flow).map Step.name).toList flow
      (flow.after call) numbers := by
  show ∃ numbers, Counted
    (((flow.addStep call.vocabulary call.node call.word).1.toOption).map Step.name).toList flow
    (flow.addStep call.vocabulary call.node call.word).2 numbers
  rcases addStep_cases call.vocabulary call.node call.word flow with
    ⟨_, outcome⟩ | ⟨index, _, ⟨_, outcome⟩ | ⟨kind, _, ⟨_, outcome⟩ | ⟨number, next, outcome⟩⟩⟩
  · rw [outcome]
    exact ⟨[], .none (UInt64.le_refl flow.names.last)⟩
  · rw [outcome]
    exact ⟨[], .none (UInt64.le_refl flow.names.last)⟩
  · rw [outcome]
    exact ⟨[], .none (StepNames.le_greatest flow.names.last)⟩
  · rw [outcome]
    refine ⟨[number], ?_, List.pairwise_singleton _ _, ?_, ?_, UInt64.le_of_lt next.above⟩
    · exact congrArg (fun name => [name]) (Step.name_new kind _)
    · exact List.forall_mem_singleton.mpr next.above
    · exact List.forall_mem_singleton.mpr (UInt64.le_refl _)

/-- **One event issues at most one name, above the counter, and never takes the counter back.** -/
theorem counted_apply (event : Event) (flow : Flow) :
    ∃ numbers, Counted ((event.added flow).map Step.name).toList flow (event.apply flow) numbers := by
  cases event with
  | reload vocabulary =>
    refine ⟨[], .none ?_⟩
    rw [Event.apply]
    split
    · rename_i again loaded
      rw [names_of_load_canonical loaded]
      exact UInt64.le_refl _
    · exact UInt64.le_refl _
  | edit change =>
    cases change with
    | addStep call => exact counted_addStep call flow
    | addNode node => exact ⟨[], .none (UInt64.le_refl flow.names.last)⟩
    | updateStep name update => exact ⟨[], .none (UInt64.le_refl flow.names.last)⟩
    | removeStep name =>
      refine ⟨[], .none ?_⟩
      show flow.names.last ≤ (flow.removeStep name).2.names.last
      rcases removeStep_cases name flow with ⟨_, outcome⟩ | ⟨step, nodes, _, outcome⟩
      · rw [outcome]
        exact UInt64.le_refl _
      · rw [outcome]
        exact UInt64.le_refl _

/-- A course of events issues names with rising numbers, by induction on the course. -/
theorem counted_live (events : List Event) (flow : Flow) :
    ∃ numbers, Counted (flow.issued events) flow (flow.live events) numbers := by
  induction events generalizing flow with
  | nil => exact ⟨[], .none (UInt64.le_refl _)⟩
  | cons event rest ih =>
    obtain ⟨numbers, once⟩ := counted_apply event flow
    obtain ⟨more, again⟩ := ih (event.apply flow)
    exact ⟨numbers ++ more, once.append again⟩

theorem Counted.nodup {names : List String} {flow after : Flow} {numbers : List UInt64}
    (counted : Counted names flow after numbers) : names.Nodup := by
  have distinct : numbers.Nodup := counted.rising.imp UInt64.ne_of_lt
  rw [counted.named]
  exact distinct.map StepNames.nameOf_injective

/-- **No name is issued twice.** However a flow is edited, saved and loaded again, the numbers of the
names issued go up, from above the counter that it started with to the counter that it is left with.
So a name that has been issued is not issued later, be its step still there or not. -/
theorem issued_increasing (flow : Flow) (events later : List Event) :
    (∃ numbers, Counted (flow.issued events) flow (flow.live events) numbers) ∧
      (flow.issued events).Nodup ∧
      ∀ name ∈ flow.issued events, name ∉ (flow.live events).issued later := by
  obtain ⟨numbers, counted⟩ := counted_live events flow
  obtain ⟨_, all⟩ := counted_live (events ++ later) flow
  have distinct := all.nodup
  rw [issued_append] at distinct
  refine ⟨⟨numbers, counted⟩, counted.nodup, ?_⟩
  intro name before after
  exact (List.nodup_append'.mp distinct).2.2 before after

/-- A session in which the first new step is taken out before the flow is saved and loaded again. -/
def restarted : List Event :=
  [.edit (.addNode (.new "main" "Main")), .edit (.addStep ⟨.standard, "main", "say"⟩),
    .edit (.removeStep "step1"), .reload .standard]

/-- The name of the step that was taken out is not given to the next one. -/
theorem issued_increasing_restarted :
    (new .new).issued restarted = ["step1"] ∧
      ((new .new).live restarted).issued [.edit (.addStep ⟨.standard, "main", "say"⟩)] = ["step2"] ∧
      "step1" ∉ ((new .new).live restarted).issued
        [.edit (.addStep ⟨.standard, "main", "say"⟩)] := by
  have before : (new .new).issued restarted = ["step1"] := by decide +kernel
  have notAgain := (issued_increasing (new .new) restarted
    [.edit (.addStep ⟨.standard, "main", "say"⟩)]).2.2
  refine ⟨before, by decide +kernel, notAgain "step1" ?_⟩
  rw [before]
  exact List.mem_singleton_self _

end IvrFlow.Flow
