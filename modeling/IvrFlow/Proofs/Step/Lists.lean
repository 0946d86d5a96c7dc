import IvrFlow.Proofs.Step.Loading

/-!
Stored lists of a wrong type. A step stores the parts that have checks of their own in lists: its
targets, its prompts or its assignments. What stands in the place of such a list and is no array is
not refused. It counts as null, at every depth (`load_eq_of_nulled`), and the list is empty
(`bare_of_load`).
-/

namespace IvrFlow

/-- The keys under which a kind of step stores lists of parts. -/
def StepKind.listKeys : StepKind → List String
  | .dial => ["targets", "dialNouns"]
  | .gather => ["steps"]
  | .externalService => ["assignments"]
  | .say | .play | .redirect | .hangUp | .reject | .pause => []

theorem StepKind.kind_notMem_listKeys (kind : StepKind) : "kind" ∉ kind.listKeys := by
  cases kind <;> decide

/-! ### Null in the place of a list -/

/-- Null in the place of something that is no array leaves the arrays that there are. -/
theorem Fields.items?_insert_null {entries : Fields} {key : String}
    (noArray : (entries.lookup key).bind Json.items? = none) (other : String) :
    ((entries.insert key .null).lookup other).bind Json.items? =
      (entries.lookup other).bind Json.items? := by
  by_cases same : other = key
  · subst same
    simp [noArray, Json.items?]
  · simp [same]

/-- The targets, or the assignments, are looked for in arrays alone. -/
theorem Step.loadDial_insert_null {policy : TargetPolicy} {entries : Fields} {key : String}
    (isKey : key ∈ StepKind.dial.listKeys)
    (noArray : (entries.lookup key).bind Json.items? = none) :
    loadDial policy (entries.insert key .null) = loadDial policy entries := by
  have apart : known Dial.fields key = false ∧ known Header.fields key = false := by
    rcases List.mem_pair.mp isKey with rfl | rfl <;> exact ⟨rfl, rfl⟩
  have targets : Dial.storedTargets (entries.insert key .null) = Dial.storedTargets entries := by
    simp only [Dial.storedTargets, Fields.items?_insert_null noArray]
  rw [loadDial, readStep_insert apart.1 apart.2, targets]
  rfl

theorem Step.loadService_insert_null {entries : Fields}
    (noArray : (entries.lookup "assignments").bind Json.items? = none) :
    loadService (entries.insert "assignments" .null) = loadService entries := by
  rw [loadService, readStep_insert (by decide) (by decide), loadService]
  simp [Service.loadParts_eq, Service.loadAssignments, Service.loadNextPath, noArray, Json.items?]

namespace Step

/-- A stored step with null in the place of one of its lists that is no array. -/
inductive Nulled (vocabulary : Vocabulary) : Json → Json → Prop where
  | intro {entries : Fields} {kind : StepKind} {key : String} {value : Json} :
      vocabulary.storedKind (.obj entries) = .ok kind → key ∈ kind.listKeys →
      entries.lookup key = some value → value.items? = none →
      Nulled vocabulary (.obj entries) (.obj (entries.insert key .null))

section Loading

variable {vocabulary : Vocabulary}

theorem load_eq_of_nulled {stored other : Json} (nulled : Nulled vocabulary stored other) :
    load vocabulary stored = load vocabulary other := by
  obtain @⟨entries, kind, key, value, isKind, isKey, found, wrong⟩ := nulled
  have noArray : (entries.lookup key).bind Json.items? = none := by
    rw [found]
    exact wrong
  have isKindToo : vocabulary.storedKind (.obj (entries.insert key .null)) = .ok kind := by
    rw [storedKind_insert vocabulary (fun same => kind.kind_notMem_listKeys (same ▸ isKey)), isKind]
  have own : loadOwn vocabulary (entries.insert key .null) kind =
      loadOwn vocabulary entries kind := by
    cases kind with
    | dial => exact loadDial_insert_null isKey noArray
    | externalService =>
      rcases List.mem_singleton.mp isKey with rfl
      exact loadService_insert_null noArray
    | gather =>
      rcases List.mem_singleton.mp isKey with rfl
      have prompts : (Json.obj entries).storedSteps = [] := by
        rw [Json.storedSteps, Json.get?, noArray]
        rfl
      rw [loadOwn, loadOwn, loadGather_insert, storedSteps_insert, prompts]
      rfl
    | say | play | redirect | hangUp | reject | pause => cases isKey
  rw [load_obj isKind, load_obj isKindToo, own]

/-! ### Empty lists -/

/-- Whether the lists of a step are empty. -/
def Bare : Step → Prop
  | .act _ (.dial dial) => dial.targets = []
  | .act _ (.externalService service) => service.assignments = []
  | .act _ _ => True
  | .gather _ _ prompts => prompts = []

/-- A stored step with no array in the place of any of its lists. -/
def Unlisted (vocabulary : Vocabulary) (stored : Json) : Prop :=
  ∃ kind, vocabulary.storedKind stored = .ok kind ∧
    ∀ key ∈ kind.listKeys, (stored.get? key).bind Json.items? = none

theorem bare_normalize {step : Step} (bare : step.Bare) : step.normalize.Bare := by
  cases step with
  | act header action => cases action <;> exact bare
  | gather header digits prompts =>
    cases bare
    rfl

theorem bare_of_loadDial {policy : TargetPolicy} {entries : Fields} {step : Step}
    (noArray : ∀ key ∈ StepKind.dial.listKeys, (entries.lookup key).bind Json.items? = none)
    (loaded : loadDial policy entries = .ok step) : step.Bare := by
  have noTargets := noArray "targets" List.mem_cons_self
  have noNouns := noArray "dialNouns" (List.mem_cons_of_mem _ List.mem_cons_self)
  have targets : Dial.storedTargets entries = [] := by
    rw [Dial.storedTargets, noTargets, noNouns]
    rfl
  rw [loadDial, targets] at loaded
  obtain ⟨⟨header, dial⟩, _, rest⟩ := bind_eq_ok_iff.mp loaded
  cases rest
  rfl

theorem bare_of_loadService {entries : Fields} {step : Step}
    (noArray : (entries.lookup "assignments").bind Json.items? = none)
    (loaded : loadService entries = .ok step) : step.Bare := by
  obtain ⟨⟨header, start⟩, read, rest⟩ := bind_eq_ok_iff.mp loaded
  obtain ⟨service, loadedParts, isStep⟩ := bind_eq_ok_iff.mp rest
  cases isStep
  rw [Service.loadParts_eq, Service.loadAssignments, noArray] at loadedParts
  obtain ⟨assignments, same, rest⟩ := bind_eq_ok_iff.mp loadedParts
  obtain ⟨path, _, isService⟩ := bind_eq_ok_iff.mp rest
  cases same
  cases isService
  exact (parts_of_readService read).1

/-- **Without an array there are no parts**, whatever stands in its place. -/
theorem bare_of_load {stored : Json} {step : Step} (unlisted : Unlisted vocabulary stored)
    (loaded : load vocabulary stored = .ok step) : step.Bare := by
  obtain ⟨kind, isKind, noArray⟩ := unlisted
  obtain ⟨entries, same, own, rfl, isSame, loadedOwn, rfl⟩ := exists_own_of_load loaded
  cases isKind.symm.trans isSame
  refine bare_normalize ?_
  cases kind with
  | gather =>
    obtain ⟨header, digits, prompts, _, loadedPrompts, rfl⟩ := loadOwn_gather_eq_ok loadedOwn
    rw [Json.storedSteps, noArray "steps" List.mem_cons_self] at loadedPrompts
    exact (pure_eq_ok_iff.mp loadedPrompts).symm
  | dial => exact bare_of_loadDial noArray loadedOwn
  | externalService =>
    exact bare_of_loadService (noArray "assignments" List.mem_cons_self) loadedOwn
  | say | play | redirect | hangUp | reject | pause =>
    obtain ⟨⟨header, body⟩, _, isOwn⟩ := bind_eq_ok_iff.mp loadedOwn
    cases isOwn
    exact trivial

end Loading

end Step

end IvrFlow
