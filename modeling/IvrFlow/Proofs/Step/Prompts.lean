import IvrFlow.Proofs.Json.Parts
import IvrFlow.Proofs.Step.RoundTrip

/-!
Steps that are stored in stored steps. A stored gather step holds stored prompts, which may be gather
steps in their turn; so what holds of loading is proved by induction on the depth of what is stored
(`storedInduction`). Each prompt is loaded on its own, and what it is loaded as stands, unchanged, in
the step that the whole is loaded as. What a stored step is loaded as depends on its prompts only
through what they are loaded as (`load_eq_of_rewritten`).
-/

namespace IvrFlow

/-! ### Stored steps -/

namespace Json

/-- The steps that an object has in an array under `steps`; anything else has none. -/
def storedSteps (stored : Json) : List Json := ((stored.get? "steps").bind items?).getD []

theorem storedSteps_eq {stored : Json} {items : List Json}
    (found : stored.get? "steps" = some (.arr items)) : stored.storedSteps = items := by
  rw [storedSteps, found]
  rfl

theorem exists_of_mem_storedSteps {stored item : Json} (isStored : item ∈ stored.storedSteps) :
    ∃ items, stored.get? "steps" = some (.arr items) ∧ item ∈ items := by
  rw [storedSteps] at isStored
  cases found : stored.get? "steps" with
  | none =>
    rw [found] at isStored
    cases isStored
  | some value =>
    rw [found] at isStored
    cases value with
    | arr items => exact ⟨items, rfl, isStored⟩
    | null | bool | num | str | obj => cases isStored

theorem sizeOf_lt_of_mem_storedSteps {stored item : Json} (isStored : item ∈ stored.storedSteps) :
    sizeOf item < sizeOf stored := by
  obtain ⟨items, found, isItem⟩ := exists_of_mem_storedSteps isStored
  have inside : item ∈ (arr items).parts := isItem
  exact Nat.lt_trans (sizeOf_lt_of_mem_parts inside) (sizeOf_lt_of_mem_parts (mem_parts_of_get? found))

theorem Throughout.storedSteps {property : Json → Prop} {stored : Json}
    (throughout : stored.Throughout property) :
    ∀ item ∈ stored.storedSteps, item.Throughout property := by
  intro item isStored
  obtain ⟨items, found, isItem⟩ := exists_of_mem_storedSteps isStored
  exact (throughout.parts _ (mem_parts_of_get? found)).parts item isItem

end Json

namespace Step

/-- Induction on the depth of a stored step: it comes after the steps that it stores. -/
@[elab_as_elim]
theorem storedInduction {motive : Json → Prop}
    (each : ∀ stored : Json, (∀ item ∈ stored.storedSteps, motive item) → motive stored)
    (stored : Json) : motive stored :=
  each stored fun item isStored =>
    have := Json.sizeOf_lt_of_mem_storedSteps isStored
    storedInduction each item
termination_by sizeOf stored

/-- A stored step and the prompts stored in it, at every depth. -/
inductive Stores (vocabulary : Vocabulary) : Json → Json → Prop where
  | self (stored : Json) : Stores vocabulary stored stored
  | prompt {stored item part : Json} : vocabulary.storedKind stored = .ok .gather →
      item ∈ stored.storedSteps → Stores vocabulary item part → Stores vocabulary stored part

/-! ### Loading stored steps -/

section Loading

variable {vocabulary : Vocabulary}

theorem loadPrompts_eq_mapM (vocabulary : Vocabulary) (entries : Fields) :
    loadPrompts vocabulary entries = (Json.obj entries).storedSteps.mapM (load vocabulary) := by
  rw [loadPrompts_eq, Json.storedSteps, Json.get?]
  cases entries.lookup "steps" with
  | none => rfl
  | some value =>
    cases value with
    | arr items => exact loadAll_eq_mapM vocabulary items
    | null | bool | num | str | obj => rfl

/-- What the entries of a step of some kind are loaded as, before it is normalized. The prompts of a
gather step are loaded last, one by one. -/
def loadOwn (vocabulary : Vocabulary) (entries : Fields) : StepKind → Except StepError Step
  | .say => loadPlain .say Say.fields .new .say entries
  | .play => loadPlain .play Play.fields .new .play entries
  | .dial => loadDial vocabulary.policy entries
  | .redirect => loadPlain .redirect Redirect.fields .new .redirect entries
  | .hangUp => loadPlain .hangUp [] () (fun _ => .hangUp) entries
  | .reject => loadPlain .reject Reject.fields .new .reject entries
  | .pause => loadPlain .pause Pause.fields .new .pause entries
  | .externalService => loadService entries
  | .gather => do
    let (header, digits) ← loadGather entries
    let prompts ← (Json.obj entries).storedSteps.mapM (load vocabulary)
    return .gather header digits prompts

theorem loadAs_obj (vocabulary : Vocabulary) (kind : StepKind) (entries : Fields) :
    loadAs vocabulary kind (.obj entries) = do
      return normalize (← loadOwn vocabulary entries kind) := by
  rw [loadAs.eq_def]
  cases kind with
  | gather => simp only [loadOwn, loadPrompts_eq_mapM, bind_assoc]
  | say | play | dial | redirect | hangUp | reject | pause | externalService => rfl

theorem load_obj {entries : Fields} {kind : StepKind}
    (isKind : vocabulary.storedKind (.obj entries) = .ok kind) :
    load vocabulary (.obj entries) = do
      return normalize (← loadOwn vocabulary entries kind) := by
  rw [load, isKind, ← loadAs_obj]
  rfl

/-- A step that is loaded has been stored as an object of some kind. -/
theorem exists_own_of_load {stored : Json} {step : Step} (loaded : load vocabulary stored = .ok step) :
    ∃ entries kind own, stored = .obj entries ∧ vocabulary.storedKind stored = .ok kind ∧
      loadOwn vocabulary entries kind = .ok own ∧ step = own.normalize := by
  obtain ⟨kind, isKind, loadedAs⟩ := bind_eq_ok_iff.mp loaded
  cases stored with
  | obj entries =>
    rw [loadAs_obj] at loadedAs
    obtain ⟨own, loadedOwn, isStep⟩ := bind_eq_ok_iff.mp loadedAs
    exact ⟨entries, kind, own, rfl, isKind, loadedOwn, (pure_eq_ok_iff.mp isStep).symm⟩
  | null | bool | num | str | arr => cases loadedAs

theorem loadOwn_gather_eq_ok {entries : Fields} {own : Step}
    (loaded : loadOwn vocabulary entries .gather = .ok own) :
    ∃ header digits prompts, loadGather entries = .ok (header, digits) ∧
      (Json.obj entries).storedSteps.mapM (load vocabulary) = .ok prompts ∧
      own = .gather header digits prompts := by
  obtain ⟨⟨header, digits⟩, loadedGather, rest⟩ := bind_eq_ok_iff.mp loaded
  obtain ⟨prompts, loadedPrompts, isOwn⟩ := bind_eq_ok_iff.mp rest
  exact ⟨header, digits, prompts, loadedGather, loadedPrompts, (pure_eq_ok_iff.mp isOwn).symm⟩

/-- A loaded step is normal. -/
theorem normalize_of_load {stored : Json} {step : Step} (loaded : load vocabulary stored = .ok step) :
    step.normalize = step := by
  obtain ⟨_, _, own, _, _, _, rfl⟩ := exists_own_of_load loaded
  exact own.normalize_normalize

/-- What a prompt is loaded as is a prompt of what the gather step is loaded as. -/
theorem exists_prompt_of_load {stored item : Json} {step : Step}
    (isGather : vocabulary.storedKind stored = .ok .gather) (isStored : item ∈ stored.storedSteps)
    (loaded : load vocabulary stored = .ok step) :
    ∃ prompt ∈ step.prompts, load vocabulary item = .ok prompt := by
  obtain ⟨entries, kind, own, rfl, isKind, loadedOwn, rfl⟩ := exists_own_of_load loaded
  cases isGather.symm.trans isKind
  obtain ⟨header, digits, prompts, _, loadedPrompts, rfl⟩ := loadOwn_gather_eq_ok loadedOwn
  obtain ⟨prompt, isPrompt, loadedItem⟩ := exists_value_of_mapM_eq_ok loadedPrompts item isStored
  refine ⟨prompt, ?_, loadedItem⟩
  rw [prompts_normalize]
  exact List.mem_map.mpr ⟨prompt, isPrompt, normalize_of_load loadedItem⟩

end Loading

/-! ### Changing stored steps -/

/-- The entries under keys that neither a kind nor a header knows do not matter for either. -/
theorem readStep_insert {α : Type} {kind : StepKind} {fields : List (Field α)} {blank : α}
    {key : String} (unknown : known fields key = false)
    (notHeader : known Header.fields key = false) (value : Json) (entries : Fields) :
    readStep kind fields blank (entries.insert key value) = readStep kind fields blank entries := by
  rw [readStep, readFields_insert_of_unknown unknown, readFields_insert_of_unknown notHeader]
  rfl

theorem storedKind_congr (vocabulary : Vocabulary) {entries others : Fields}
    (same : entries.lookup "kind" = others.lookup "kind") :
    vocabulary.storedKind (.obj entries) = vocabulary.storedKind (.obj others) := by
  rw [Vocabulary.storedKind, Vocabulary.storedKind, Json.get?, Json.get?, same]

theorem storedKind_insert (vocabulary : Vocabulary) {key : String} (other : "kind" ≠ key)
    (value : Json) (entries : Fields) :
    vocabulary.storedKind (.obj (entries.insert key value)) =
      vocabulary.storedKind (.obj entries) :=
  storedKind_congr vocabulary (Fields.lookup_insert_of_ne value entries other)

/-- Other prompts do not matter for what a gather step has besides its prompts. -/
theorem loadGather_insert (value : Json) (entries : Fields) :
    loadGather (entries.insert "steps" value) = loadGather entries := by
  have validation : (entries.insert "steps" value).lookup "validation" =
      entries.lookup "validation" := Fields.lookup_insert_of_ne value entries (by decide)
  rw [loadGather, readStep_insert (by decide) (by decide)]
  simp only [Gather.loadAnnouncement, validation]
  rfl

theorem storedSteps_insert (value : Json) (entries : Fields) :
    (Json.obj (entries.insert "steps" value)).storedSteps = (value.items?).getD [] := by
  rw [Json.storedSteps, Json.get?, Fields.lookup_insert_self, Option.bind_some]

/-- A stored gather step is loaded with its prompts, one by one, after what it has besides them. -/
theorem load_gather {vocabulary : Vocabulary} {entries : Fields} {items : List Json}
    (isGather : vocabulary.storedKind (.obj entries) = .ok .gather)
    (found : entries.lookup "steps" = some (.arr items)) :
    load vocabulary (.obj entries) = loadGather entries >>= fun gather =>
      items.mapM (load vocabulary) >>= fun prompts =>
        .ok (Step.gather gather.1 gather.2 prompts).normalize := by
  have stored : (Json.obj entries).storedSteps = items := Json.storedSteps_eq found
  rw [load_obj isGather, loadOwn, stored]
  simp only [bind_assoc]
  rfl

theorem load_gather_insert {vocabulary : Vocabulary} {entries : Fields}
    (isGather : vocabulary.storedKind (.obj entries) = .ok .gather) (items : List Json) :
    load vocabulary (.obj (entries.insert "steps" (.arr items))) =
      loadGather entries >>= fun gather => items.mapM (load vocabulary) >>= fun prompts =>
        .ok (Step.gather gather.1 gather.2 prompts).normalize := by
  have isGatherToo : vocabulary.storedKind (.obj (entries.insert "steps" (.arr items))) =
      .ok .gather := by
    rw [storedKind_insert vocabulary (by decide), isGather]
  rw [load_gather isGatherToo (Fields.lookup_insert_self "steps" _ entries), loadGather_insert]

/-- One stored step made into another by changes according to a rule, each of the step itself or of a
prompt stored in it, at any depth. -/
inductive Rewritten (vocabulary : Vocabulary) (rule : Json → Json → Prop) : Json → Json → Prop where
  | refl (stored : Json) : Rewritten vocabulary rule stored stored
  | here {stored other : Json} : rule stored other → Rewritten vocabulary rule stored other
  | prompt {entries : Fields} {before after : List Json} {item other : Json} :
      vocabulary.storedKind (.obj entries) = .ok .gather →
      entries.lookup "steps" = some (.arr (before ++ item :: after)) →
      Rewritten vocabulary rule item other →
      Rewritten vocabulary rule (.obj entries)
        (.obj (entries.insert "steps" (.arr (before ++ other :: after))))
  | trans {stored middle other : Json} : Rewritten vocabulary rule stored middle →
      Rewritten vocabulary rule middle other → Rewritten vocabulary rule stored other

/-- **Changes that do not matter for the steps themselves do not matter at any depth.** -/
theorem load_eq_of_rewritten {vocabulary : Vocabulary} {rule : Json → Json → Prop}
    (each : ∀ {stored other}, rule stored other → load vocabulary stored = load vocabulary other)
    {stored other : Json} (rewritten : Rewritten vocabulary rule stored other) :
    load vocabulary stored = load vocabulary other := by
  induction rewritten with
  | refl stored => rfl
  | here changed => exact each changed
  | prompt isGather found _ ih =>
    rw [load_gather isGather found, load_gather_insert isGather]
    simp only [List.mapM_append, List.mapM_cons, ih]
  | trans _ _ first second => exact first.trans second

end Step

end IvrFlow
