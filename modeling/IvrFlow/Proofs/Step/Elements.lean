import IvrFlow.Proofs.Step.Loading

/-!
Parts that steps store in arrays: the prompts of a gather step and the assignments of a call. Each
stored element is loaded on its own and in order, all of them or none; the step then holds just what
they are loaded as. Of the elements that are not loaded the first decides, with its own error,
unless what the step has besides the array, and is loaded before it, fails.
-/

namespace IvrFlow

namespace Service

/-- The assignments that entries hold in an array; anything else has none. -/
def storedAssignments (entries : Fields) : List Json :=
  ((entries.lookup "assignments").bind Json.items?).getD []

theorem loadAssignments_eq (entries : Fields) :
    loadAssignments entries [] = (storedAssignments entries).mapM Assignment.load := by
  rw [loadAssignments, storedAssignments]
  cases (entries.lookup "assignments").bind Json.items? <;> rfl

end Service

namespace Step

section Elements

variable {vocabulary : Vocabulary} {entries : Fields}

/-! ### Prompts -/

/-- How a gather step is loaded: what it has besides its prompts, its announcement included, and
then its prompts one by one. -/
structure PromptsAlone (vocabulary : Vocabulary) (entries : Fields) : Prop where
  loaded : ∀ step, load vocabulary (.obj entries) = .ok step ↔
    ∃ header digits prompts, loadGather entries = .ok (header, digits) ∧
      List.Forall₂ (fun item prompt => load vocabulary item = .ok prompt)
        (Json.obj entries).storedSteps prompts ∧
      step = .gather (header.normalize .gather) digits.normalize prompts
  failed : ∀ error, load vocabulary (.obj entries) = .error error ↔
    loadGather entries = .error error ∨
      (∃ own, loadGather entries = .ok own) ∧
        FirstFails (load vocabulary) (Json.obj entries).storedSteps error

theorem promptsAlone (isGather : vocabulary.storedKind (.obj entries) = .ok .gather) :
    PromptsAlone vocabulary entries := by
  have outcome : load vocabulary (.obj entries) = loadGather entries >>= fun own =>
      (Json.obj entries).storedSteps.mapM (load vocabulary) >>= fun prompts =>
        .ok (Step.gather own.1 own.2 prompts).normalize := by
    rw [load_obj isGather, loadOwn]
    simp only [bind_assoc]
    rfl
  -- What prompts are loaded as is normal, so normalizing the step leaves them.
  have kept (header : Header) (digits : Gather) {prompts : List Step}
      (each : List.Forall₂ (fun item prompt => load vocabulary item = .ok prompt)
        (Json.obj entries).storedSteps prompts) :
      (Step.gather header digits prompts).normalize =
        .gather (header.normalize .gather) digits.normalize prompts := by
    have normal : prompts.map normalize = prompts := by
      refine (List.map_congr_left fun prompt isPrompt => ?_).trans (List.map_id prompts)
      obtain ⟨item, _, loadedItem⟩ := exists_of_forall₂ each prompt isPrompt
      exact normalize_of_load loadedItem
    rw [normalize, normalizeAll_eq_map, normal]
  refine ⟨fun step => ?_, fun error => ?_⟩
  · rw [outcome, bind_mapM_eq_ok_iff]
    constructor
    · rintro ⟨⟨header, digits⟩, prompts, loadedOwn, each, rfl⟩
      exact ⟨header, digits, prompts, loadedOwn, each, kept header digits each⟩
    · rintro ⟨header, digits, prompts, loadedOwn, each, rfl⟩
      exact ⟨(header, digits), prompts, loadedOwn, each, (kept header digits each).symm⟩
  · rw [outcome, bind_mapM_eq_error_iff]

/-! ### Assignments -/

/-- How a call is loaded: what it has besides its assignments and its path, then its assignments one
by one, and then its path. -/
structure AssignmentsAlone (vocabulary : Vocabulary) (entries : Fields) : Prop where
  loaded : ∀ step, load vocabulary (.obj entries) = .ok step ↔
    ∃ header service assignments path,
      readStep .externalService Service.fields .new entries = .ok (header, service) ∧
      List.Forall₂ (fun item assignment => Assignment.load item = .ok assignment)
        (Service.storedAssignments entries) assignments ∧
      Service.loadNextPath entries .empty = .ok path ∧
      step = .act (header.normalize .externalService)
        (.externalService { service with assignments := assignments, nextPath := path })
  failed : ∀ error, load vocabulary (.obj entries) = .error error ↔
    readStep .externalService Service.fields .new entries = .error error ∨
      (∃ own, readStep .externalService Service.fields .new entries = .ok own) ∧
        (FirstFails Assignment.load (Service.storedAssignments entries) error ∨
          (∃ assignments, (Service.storedAssignments entries).mapM Assignment.load =
            .ok assignments) ∧ Service.loadNextPath entries .empty = .error error)

/-- Before they are loaded a call has no assignments and the empty path. -/
theorem load_call_eq (isCall : vocabulary.storedKind (.obj entries) = .ok .externalService) :
    load vocabulary (.obj entries) =
      readStep .externalService Service.fields .new entries >>= fun own =>
        (Service.storedAssignments entries).mapM Assignment.load >>= fun assignments =>
          Service.loadNextPath entries .empty >>= fun path =>
            .ok (.act (own.1.normalize .externalService)
              (.externalService { own.2 with assignments := assignments, nextPath := path })) := by
  rw [load_obj isCall, loadOwn, loadService]
  cases read : readStep .externalService Service.fields .new entries with
  | error error => rfl
  | ok own =>
    obtain ⟨noAssignments, noPath⟩ := parts_of_readService read
    have parts : own.2.loadParts entries =
        (Service.storedAssignments entries).mapM Assignment.load >>= fun assignments =>
          Service.loadNextPath entries .empty >>= fun path =>
            .ok { own.2 with assignments := assignments, nextPath := path } := by
      rw [Service.loadParts_eq, noAssignments, noPath, Service.loadAssignments_eq]
      rfl
    simp only [ok_bind, parts, bind_assoc]
    rfl

theorem assignmentsAlone (isCall : vocabulary.storedKind (.obj entries) = .ok .externalService) :
    AssignmentsAlone vocabulary entries := by
  refine ⟨fun step => ?_, fun error => ?_⟩
  · rw [load_call_eq isCall]
    constructor
    · intro loaded
      obtain ⟨⟨header, service⟩, read, rest⟩ := bind_eq_ok_iff.mp loaded
      obtain ⟨assignments, loadedEach, rest⟩ := bind_eq_ok_iff.mp rest
      obtain ⟨path, loadedPath, isStep⟩ := bind_eq_ok_iff.mp rest
      cases isStep
      exact ⟨header, service, assignments, path, read, mapM_eq_ok_iff.mp loadedEach, loadedPath,
        rfl⟩
    · rintro ⟨header, service, assignments, path, read, each, loadedPath, rfl⟩
      rw [read, mapM_eq_ok_iff.mpr each, loadedPath]
      rfl
  · rw [load_call_eq isCall, bind_eq_error_iff]
    refine or_congr_right ?_
    constructor
    · rintro ⟨own, read, fails⟩
      refine ⟨⟨own, read⟩, ?_⟩
      rcases bind_eq_error_iff.mp fails with fails | ⟨assignments, loadedEach, fails⟩
      · exact Or.inl (mapM_eq_error_iff.mp fails)
      · rcases bind_eq_error_iff.mp fails with fails | ⟨_, _, fails⟩
        · exact Or.inr ⟨⟨assignments, loadedEach⟩, fails⟩
        · cases fails
    · rintro ⟨⟨own, read⟩, fails | ⟨⟨assignments, loadedEach⟩, fails⟩⟩
      · exact ⟨own, read, bind_eq_error_iff.mpr (Or.inl (mapM_eq_error_iff.mpr fails))⟩
      · refine ⟨own, read, bind_eq_error_iff.mpr (Or.inr ⟨assignments, loadedEach, ?_⟩)⟩
        exact bind_eq_error_iff.mpr (Or.inl fails)

end Elements

end Step

end IvrFlow
