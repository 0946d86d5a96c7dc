import IvrFlow.Proofs.Step.Reading

/-!
Storing steps. A step whose paths are reachable is loaded back from its canonical form as its normal
form, with any vocabulary that keeps the words of the kinds, or at least those of the kinds in the
step (`Spoken`). The proof is by induction on the depth of the step: a gather step is read back once
all its prompts are.
-/

namespace IvrFlow

/-- The own word of each kind still stands for the kind, whatever aliases there are. -/
def Vocabulary.KeepsWords (vocabulary : Vocabulary) : Prop :=
  ∀ kind : StepKind, vocabulary.kindOf? kind.word = some kind

theorem Vocabulary.keepsWords_standard : standard.KeepsWords := by
  simp [KeepsWords, kindOf?, standard]

/-- The paths of an action. -/
def Action.paths : Action → List Path
  | .externalService body => body.paths
  | _ => []

namespace Step

mutual

/-- The paths of a step, those of its prompts at every depth included. -/
def paths : Step → List Path
  | .act _ action => action.paths
  | .gather _ _ prompts => pathsAll prompts

/-- The paths of steps. -/
def pathsAll : List Step → List Path
  | [] => []
  | step :: rest => paths step ++ pathsAll rest

end

@[simp] theorem pathsAll_eq_flatMap : ∀ steps : List Step, pathsAll steps = steps.flatMap paths
  | [] => rfl
  | step :: rest => by rw [pathsAll, pathsAll_eq_flatMap rest, List.flatMap_cons]

/-! ### Loading what is stored -/

/-- Only the first entry under `steps` is looked at for prompts. -/
theorem loadPrompts_eq (vocabulary : Vocabulary) :
    ∀ entries : Fields, loadPrompts vocabulary entries =
      match entries.lookup "steps" with
      | some (.arr items) => loadAll vocabulary items
      | _ => .ok []
  | [] => rfl
  | (key, stored) :: rest => by
    by_cases isSteps : key = "steps"
    · subst isSteps
      rw [loadPrompts.eq_def, List.lookup_cons_self]
      cases stored <;> rfl
    · have other : ("steps" == key) = false := beq_eq_false_iff_ne.mpr (Ne.symm isSteps)
      rw [loadPrompts.eq_def, List.lookup_cons, other]
      simp only [if_neg isSteps]
      exact loadPrompts_eq vocabulary rest

/-- The own words of the kinds of a step and of its prompts, at every depth, stand for those kinds. -/
inductive Spoken (vocabulary : Vocabulary) : Step → Prop where
  | act {header : Header} {action : Action} :
      vocabulary.kindOf? action.kind.word = some action.kind → Spoken vocabulary (.act header action)
  | gather {header : Header} {digits : Gather} {prompts : List Step} :
      vocabulary.kindOf? StepKind.gather.word = some .gather →
      (∀ prompt ∈ prompts, Spoken vocabulary prompt) →
      Spoken vocabulary (.gather header digits prompts)

theorem spoken_of_keepsWords {vocabulary : Vocabulary} (keeps : vocabulary.KeepsWords)
    (step : Step) : step.Spoken vocabulary := by
  induction step using Step.induction with
  | act header action => exact .act (keeps action.kind)
  | gather header digits prompts ih => exact .gather (keeps .gather) ih

theorem storedKind_entries {vocabulary : Vocabulary} {kind : StepKind}
    (keeps : vocabulary.kindOf? kind.word = some kind) (header : Header) (own : Fields) :
    vocabulary.storedKind (.obj (header.entries kind own)) = .ok kind := by
  have word : (Json.obj (header.entries kind own)).get? "kind" = some (.str kind.word) :=
    Fields.lookup_insert_self _ _ _
  simp only [Vocabulary.storedKind, word, Option.bind_some, Json.text?, Vocabulary.kindOf, keeps]

/-- A step stored with a kind is loaded as one of that kind. -/
theorem load_entries {vocabulary : Vocabulary} {kind : StepKind}
    (keeps : vocabulary.kindOf? kind.word = some kind) (header : Header) (own : Fields) :
    load vocabulary (.obj (header.entries kind own)) =
      loadAs vocabulary kind (.obj (header.entries kind own)) := by
  rw [load, storedKind_entries keeps]
  rfl

theorem loadPlain_entries {α : Type} {fields : List (Field α)} {source blank result : α}
    (kind : StepKind) (header : Header) (inOrder : InOrder fields)
    (others : ∀ key ∈ Header.keys, known fields key = false)
    (reread : rereadAll fields source blank = .ok result) (action : α → Action) :
    loadPlain kind fields blank action (header.entries kind (writeFields fields source)) =
      .ok (.act header (action result)) := by
  rw [loadPlain, readStep_writeFields kind header inOrder others reread]
  rfl

/-- The action of a stored step is loaded settled. It is normalized once more, which changes
nothing. -/
theorem loadAs_entries (vocabulary : Vocabulary) (header : Header) {action : Action}
    (sound : ∀ path ∈ action.paths, path.Sound) :
    loadAs vocabulary action.kind
        (.obj (header.entries action.kind action.normalize.prune.entries)) =
      .ok (normalize (.act header action.normalize.settle)) := by
  have normalized {loaded : Except StepError Step} {step : Step} (ok : loaded = .ok step) :
      (do return normalize (← loaded)) = Except.ok (ε := StepError) step.normalize := by
    rw [ok]
    rfl
  cases action with
  | say body =>
    exact normalized
      (loadPlain_entries .say header (by decide) (by decide) body.normalize.reread .say)
  | play body =>
    exact normalized (loadPlain_entries .play header (by decide) (by decide) body.reread .play)
  | dial body => exact normalized (loadDial_entries vocabulary.policy header body)
  | redirect body =>
    exact normalized
      (loadPlain_entries .redirect header (by decide) (by decide) body.normalize.reread .redirect)
  | hangUp =>
    have reread : rereadAll [] () () = .ok () := rereadAll_nil
    exact normalized
      (loadPlain_entries .hangUp header (by decide) (by decide) reread fun _ => .hangUp)
  | reject body =>
    exact normalized (loadPlain_entries .reject header (by decide) (by decide) body.reread .reject)
  | pause body =>
    exact normalized (loadPlain_entries .pause header (by decide) (by decide) body.reread .pause)
  | externalService body => exact normalized (loadService_entries header sound)

/-- A stored gather step is loaded settled once its prompts are loaded. -/
theorem loadAs_gather_entries {vocabulary : Vocabulary} (header : Header) (digits : Gather)
    {stored : List Json} {prompts : List Step} (loaded : loadAll vocabulary stored = .ok prompts) :
    loadAs vocabulary .gather
        (.obj (header.entries .gather (digits.normalize.prune.entries stored))) =
      .ok (normalize (.gather header digits.normalize.settle prompts)) := by
  have steps : (header.entries .gather (digits.normalize.prune.entries stored)).lookup "steps" =
      some (.arr stored) := by simp
  have promptsLoaded : loadPrompts vocabulary
      (header.entries .gather (digits.normalize.prune.entries stored)) = .ok prompts := by
    rw [loadPrompts_eq, steps]
    exact loaded
  rw [loadAs, loadGather_entries]
  show (do
    return normalize (.gather header digits.normalize.settle (← loadPrompts vocabulary _))) = _
  rw [promptsLoaded]
  rfl

/-- A step with sound paths is loaded back from its canonical form as its normal form, if the words
in it stand for its kinds. -/
theorem load_canonical_of_spoken {vocabulary : Vocabulary} {step : Step}
    (spoken : step.Spoken vocabulary) (sound : ∀ path ∈ step.paths, path.Sound) :
    load vocabulary step.canonical = .ok step.normalForm := by
  induction spoken with
  | @act header action keeps =>
    have loaded := loadAs_entries vocabulary (header.normalize action.kind) sound
    have normal : normalize (.act (header.normalize action.kind) action.normalize.settle) =
        normalForm (.act header action) := normalize_normalForm (.act header action)
    exact (load_entries keeps _ _).trans (loaded.trans (congrArg Except.ok normal))
  | @gather header digits prompts keeps _ ih =>
    have promptsLoaded : loadAll vocabulary (canonicalAll prompts) =
        .ok (prompts.map normalForm) := by
      rw [loadAll_eq_mapM, canonicalAll_eq_map]
      refine mapM_eq_ok_map fun prompt member => ih prompt member fun path isPath => sound path ?_
      rw [paths, pathsAll_eq_flatMap]
      exact List.mem_flatMap_of_mem member isPath
    have loaded := loadAs_gather_entries (header.normalize .gather) digits promptsLoaded
    have normal : normalize (.gather (header.normalize .gather) digits.normalize.settle
        (prompts.map normalForm)) = normalForm (.gather header digits prompts) := by
      rw [← normalForm_gather, normalize_normalForm]
    exact (load_entries keeps _ _).trans (loaded.trans (congrArg Except.ok normal))

theorem load_canonical_of_sound {vocabulary : Vocabulary} (keeps : vocabulary.KeepsWords)
    (step : Step) (sound : ∀ path ∈ step.paths, path.Sound) :
    load vocabulary step.canonical = .ok step.normalForm :=
  load_canonical_of_spoken (spoken_of_keepsWords keeps step) sound

/-- **A step survives storing up to its normal form.** Its canonical form loads, with any vocabulary
that keeps the words of the kinds, as the normal form, and that has the same canonical form again. -/
theorem load_canonical_eq_normalForm {vocabulary : Vocabulary} (keeps : vocabulary.KeepsWords)
    (step : Step) (reachable : ∀ path ∈ step.paths, path.Reachable) :
    load vocabulary step.canonical = .ok step.normalForm ∧
      step.normalForm.canonical = step.canonical :=
  ⟨load_canonical_of_sound keeps step fun path isPath => (reachable path isPath).sound,
    canonical_normalForm step⟩

/-- A path with one hop, and with another that has only been entered. -/
def enteredPath : Path := ⟨[.committedProperty "items"], some (.toIndex 2)⟩

theorem reachable_enteredPath : enteredPath.Reachable :=
  .edit (fun _ => .toIndex 2) Path.reachable_draft

/-- A menu that still holds free input and another title, and that calls a service meanwhile. -/
def heldMenu : Step :=
  .gather ⟨"ask", "", "menu", .null⟩
    { Gather.new with collectDigits := some ⟨"pin", "done", .global⟩ }
    [.act (.new .externalService "look")
      (.externalService { Service.new with nextPath := enteredPath })]

/-- The menu is stored and loaded with an alias: what was entered on the path, the free input and the
other title are gone. -/
theorem load_canonical_heldMenu :
    load (Vocabulary.standard.addAlias "ask" .gather) heldMenu.canonical =
        .ok (.gather (.new .gather "ask") Gather.new.normalize
          [.act (.new .externalService "look") (.externalService
            { Service.new with nextPath := .resting [.committedProperty "items"] })]) ∧
      heldMenu.normalForm.canonical = heldMenu.canonical := by
  have keeps : (Vocabulary.standard.addAlias "ask" .gather).KeepsWords := by
    intro kind
    cases kind <;> decide
  have reachable : ∀ path ∈ heldMenu.paths, path.Reachable := by
    intro path isPath
    rcases List.mem_singleton.mp isPath with rfl
    exact reachable_enteredPath
  exact load_canonical_eq_normalForm keeps heldMenu reachable

end Step

end IvrFlow
