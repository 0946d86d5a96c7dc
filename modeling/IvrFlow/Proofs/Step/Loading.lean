import IvrFlow.Proofs.Record.Frame
import IvrFlow.Proofs.Step.Prompts

/-!
What a step that has been loaded is like: all its paths, those of its prompts at every depth
included, are reachable.
-/

namespace IvrFlow

theorem StoredPart.locate_eq_ok_iff {α : Type} {part : StoredPart} {read : Except Fault α}
    {value : α} : part.locate read = .ok value ↔ read = .ok value := by
  cases read with
  | ok other => simp only [locate, Except.ok.injEq]
  | error fault => simp only [locate, reduceCtorEq]

/-! ### Parts -/

/-- The path of an assignment is not among its fields: it is loaded on its own. -/
theorem Assignment.path_of_read {stored : Json} {assignment : Assignment}
    (read : form.codec.read stored = .ok assignment) : assignment.path = .empty := by
  have frames : ∀ field ∈ form.fields, field.Frames Assignment.path := by
    intro field member
    rcases List.mem_cons.mp member with rfl | member
    · exact Field.frames_of fun _ _ => rfl
    · rcases List.mem_singleton.mp member with rfl
      exact Field.frames_of fun _ _ => rfl
  exact Record.read_frames frames frames read

theorem Assignment.reachable_of_load {stored : Json} {assignment : Assignment}
    (loaded : load stored = .ok assignment) : assignment.path.Reachable := by
  obtain ⟨own, located, withPath⟩ := bind_eq_ok_iff.mp loaded
  cases found : stored.get? "valueExtractor" with
  | none =>
    simp only [found] at withPath
    cases withPath
    rw [path_of_read (StoredPart.locate_eq_ok_iff.mp located)]
    exact .empty
  | some path =>
    simp only [found, bind_eq_ok_iff] at withPath
    obtain ⟨_, loadedPath, isAssignment⟩ := withPath
    cases isAssignment
    exact .load loadedPath

namespace Service

theorem reachable_paths {service : Service}
    (assignments : ∀ assignment ∈ service.assignments, assignment.path.Reachable)
    (next : service.nextPath.Reachable) : ∀ path ∈ service.paths, path.Reachable := by
  intro path isPath
  rcases List.mem_append.mp isPath with ofAssignment | isNext
  · obtain ⟨assignment, member, rfl⟩ := List.mem_map.mp ofAssignment
    exact assignments assignment member
  · rw [List.mem_singleton.mp isNext]
    exact next

/-- The assignments that are loaded, or those there are where no array is stored. -/
def loadAssignments (entries : Fields) (before : List Assignment) :
    Except StepError (List Assignment) :=
  match (entries.lookup "assignments").bind Json.items? with
  | some items => items.mapM Assignment.load
  | none => .ok before

/-- The path to the next step that is loaded, or the one there is where none is stored. -/
def loadNextPath (entries : Fields) (before : Path) : Except StepError Path :=
  match entries.lookup "nextValueExtractor" with
  | some stored => Path.load stored
  | none => .ok before

theorem loadAssignments_congr {entries others : Fields}
    (same : entries.lookup "assignments" = others.lookup "assignments")
    (before : List Assignment) : loadAssignments entries before = loadAssignments others before := by
  rw [loadAssignments, loadAssignments, same]

theorem loadNextPath_congr {entries others : Fields}
    (same : entries.lookup "nextValueExtractor" = others.lookup "nextValueExtractor")
    (before : Path) : loadNextPath entries before = loadNextPath others before := by
  rw [loadNextPath, loadNextPath, same]

theorem loadParts_eq (entries : Fields) (start : Service) :
    start.loadParts entries = do
      let assignments ← loadAssignments entries start.assignments
      let path ← loadNextPath entries start.nextPath
      return { start with assignments := assignments, nextPath := path } := by
  rw [loadParts, loadAssignments, loadNextPath]
  cases entries.lookup "assignments" with
  | none => cases entries.lookup "nextValueExtractor" <;> rfl
  | some value =>
    cases value with
    | arr items =>
      simp only [Option.bind_some, Json.items?]
      cases items.mapM Assignment.load with
      | error error => rfl
      | ok assignments => cases entries.lookup "nextValueExtractor" <;> rfl
    | null | bool | num | str | obj => cases entries.lookup "nextValueExtractor" <;> rfl

theorem reachable_of_loadParts {entries : Fields} {start service : Service}
    (noAssignments : start.assignments = []) (noPath : start.nextPath = .empty)
    (loaded : start.loadParts entries = .ok service) : ∀ path ∈ service.paths, path.Reachable := by
  rw [loadParts_eq] at loaded
  obtain ⟨assignments, loadedEach, rest⟩ := bind_eq_ok_iff.mp loaded
  obtain ⟨next, loadedNext, isService⟩ := bind_eq_ok_iff.mp rest
  cases isService
  refine reachable_paths (fun assignment member => ?_) ?_
  · unfold loadAssignments at loadedEach
    split at loadedEach
    · obtain ⟨_, _, loadedOne⟩ := exists_of_mapM_eq_ok loadedEach assignment member
      exact Assignment.reachable_of_load loadedOne
    · cases loadedEach
      rw [noAssignments] at member
      cases member
  · unfold loadNextPath at loadedNext
    split at loadedNext
    · exact .load loadedNext
    · cases loadedNext
      rw [noPath]
      exact .empty

end Service

namespace Step

theorem readStep_eq_ok {α : Type} {kind : StepKind} {fields : List (Field α)} {blank : α}
    {entries : Fields} {result : Header × α}
    (read : readStep kind fields blank entries = .ok result) :
    readFields fields [] blank entries = .ok result.2 ∧
      readFields Header.fields [] Header.blank entries = .ok result.1 := by
  obtain ⟨body, readBody, rest⟩ := bind_eq_ok_iff.mp (StoredPart.locate_eq_ok_iff.mp read)
  obtain ⟨header, readHeader, isResult⟩ := bind_eq_ok_iff.mp rest
  cases isResult
  exact ⟨readBody, readHeader⟩

/-- No field of a call changes its assignments or its path, which are loaded on their own. -/
theorem parts_of_readService {entries : Fields} {result : Header × Service}
    (read : readStep .externalService Service.fields .new entries = .ok result) :
    result.2.assignments = [] ∧ result.2.nextPath = .empty := by
  have frames : ∀ field ∈ Service.fields,
      field.Frames fun service => (service.assignments, service.nextPath) := by
    intro field member
    simp only [Service.fields, List.mem_cons, List.not_mem_nil, or_false] at member
    rcases member with rfl | rfl | rfl | rfl | rfl <;> exact Field.frames_of fun _ _ => rfl
  exact Prod.mk.inj (readFields_frames frames (readStep_eq_ok read).1)

theorem reachable_of_loadService {entries : Fields} {step : Step}
    (loaded : loadService entries = .ok step) : ∀ path ∈ step.paths, path.Reachable := by
  obtain ⟨⟨header, start⟩, read, rest⟩ := bind_eq_ok_iff.mp loaded
  obtain ⟨service, loadedParts, isStep⟩ := bind_eq_ok_iff.mp rest
  cases isStep
  obtain ⟨noAssignments, noPath⟩ := parts_of_readService read
  exact Service.reachable_of_loadParts noAssignments noPath loadedParts

@[simp] theorem paths_normalize (step : Step) : step.normalize.paths = step.paths := by
  induction step using Step.induction with
  | act header action => cases action <;> rfl
  | gather header digits prompts ih =>
    simp only [normalize, paths, pathsAll_eq_flatMap, normalizeAll_eq_map, List.flatMap_map]
    exact List.flatMap_congr ih

theorem reachable_of_loadPlain {α : Type} {kind : StepKind} {fields : List (Field α)} {blank : α}
    {action : α → Action} {entries : Fields} {step : Step} (none : ∀ body, (action body).paths = [])
    (loaded : loadPlain kind fields blank action entries = .ok step) :
    ∀ path ∈ step.paths, path.Reachable := by
  obtain ⟨⟨header, body⟩, _, isStep⟩ := bind_eq_ok_iff.mp loaded
  cases isStep
  rw [paths, none]
  exact fun path isPath => absurd isPath List.not_mem_nil

theorem reachable_of_loadDial {policy : TargetPolicy} {entries : Fields} {step : Step}
    (loaded : loadDial policy entries = .ok step) : ∀ path ∈ step.paths, path.Reachable := by
  obtain ⟨⟨header, dial⟩, _, rest⟩ := bind_eq_ok_iff.mp loaded
  obtain ⟨targets, _, isStep⟩ := bind_eq_ok_iff.mp rest
  cases isStep
  exact fun path isPath => absurd isPath List.not_mem_nil

/-! ### Whole steps -/

/-- All paths of a loaded step are reachable. -/
theorem reachable_of_load {vocabulary : Vocabulary} {stored : Json} {step : Step}
    (loaded : load vocabulary stored = .ok step) : ∀ path ∈ step.paths, path.Reachable := by
  induction stored using storedInduction generalizing step with
  | each stored ih =>
    obtain ⟨entries, kind, own, rfl, _, loadedOwn, rfl⟩ := exists_own_of_load loaded
    rw [paths_normalize]
    cases kind with
    | gather =>
      obtain ⟨header, digits, prompts, _, loadedPrompts, rfl⟩ := loadOwn_gather_eq_ok loadedOwn
      intro path isPath
      rw [paths, pathsAll_eq_flatMap] at isPath
      obtain ⟨prompt, isPrompt, inPrompt⟩ := List.mem_flatMap.mp isPath
      obtain ⟨item, isItem, loadedItem⟩ := exists_of_mapM_eq_ok loadedPrompts prompt isPrompt
      exact ih item isItem loadedItem path inPrompt
    | dial => exact reachable_of_loadDial loadedOwn
    | externalService => exact reachable_of_loadService loadedOwn
    | say | play | redirect | hangUp | reject | pause =>
      rw [loadOwn] at loadedOwn
      exact reachable_of_loadPlain (fun _ => rfl) loadedOwn

end Step

end IvrFlow
