import IvrFlow.Proofs.Step.Canonical
import IvrFlow.Proofs.Step.Elements
import IvrFlow.Proofs.Step.Kept

/-!
What the editor keeps with steps. An object that is stored for the editor, with a step, with the
announcement of a gather step, or with a prompt, at any depth, is not looked into: it stands as it is
in the step that is loaded (`EditorPlace.Stored.held?`) and in the canonical form of that
(`EditorPlace.stored_canonical`).
-/

namespace IvrFlow

/-- A place at which the editor keeps something: with a step itself, with its announcement, or with
one of its prompts, which are counted from the first one on. -/
inductive EditorPlace where
  | own
  | announcement
  | prompt (index : Nat) (place : EditorPlace)

namespace EditorPlace

/-- What a step has at a place. -/
def held? : EditorPlace → Step → Option Json
  | .own, step => some step.header.iface
  | .announcement, .gather _ digits _ => some digits.validation.announcement.header.iface
  | .announcement, .act _ _ => none
  | .prompt index place, step => step.prompts[index]?.bind place.held?

/-- A stored step has a value at a place. Only gather steps have announcements and prompts. -/
inductive Stored (vocabulary : Vocabulary) (value : Json) : EditorPlace → Json → Prop where
  | own {stored : Json} : stored.get? "iface" = some value → Stored vocabulary value .own stored
  | announcement {stored : Json} : vocabulary.storedKind stored = .ok .gather →
      ((stored.get? "validation").bind (Json.get? "messageStep")).bind (Json.get? "iface") =
        some value →
      Stored vocabulary value .announcement stored
  | prompt {stored item : Json} {index : Nat} {place : EditorPlace} :
      vocabulary.storedKind stored = .ok .gather → stored.storedSteps[index]? = some item →
      Stored vocabulary value place item → Stored vocabulary value (.prompt index place) stored

end EditorPlace

/-! ### Headers -/

namespace Header

theorem iface_of_read {entries : Fields} {header : Header} {value : Json}
    (isThere : entries.lookup "iface" = some value)
    (read : readFields fields [] blank entries = .ok header) : header.iface = value := by
  refine view_of_readFields rfl ?_ ?_ List.not_mem_nil isThere read
  · intro field isField named
    simp only [fields, List.mem_cons, List.not_mem_nil, or_false] at isField
    rcases isField with rfl | rfl | rfl | rfl
    · refine ⟨rfl, fun stored record result succeeds => ?_⟩
      cases succeeds
      rfl
    all_goals exact absurd named (by decide)
  · intro field isField other
    simp only [fields, List.mem_cons, List.not_mem_nil, or_false] at isField
    rcases isField with rfl | rfl | rfl | rfl
    · exact absurd rfl other
    all_goals exact Field.frames_of fun _ _ => rfl

theorem iface_normalize_of_obj {header : Header} {contents : Fields}
    (isObject : header.iface = .obj contents) (kind : StepKind) :
    (header.normalize kind).iface = .obj contents := by
  simp only [normalize, isObject, Json.isObject, if_true]

theorem lookup_iface_entries (kind : StepKind) (header : Header) (own : Fields) :
    (header.entries kind own).lookup "iface" = some header.iface := by
  simp [entries, addTo]

end Header

theorem Announcement.iface_of_load {stored : Json} {announcement : Announcement}
    {contents : Fields} (isThere : stored.get? "iface" = some (.obj contents))
    (loaded : load stored = .ok announcement) : announcement.header.iface = .obj contents := by
  cases stored with
  | obj entries =>
    obtain ⟨⟨header, say⟩, read, isAnnouncement⟩ := bind_eq_ok_iff.mp loaded
    cases isAnnouncement
    exact Header.iface_normalize_of_obj
      (Header.iface_of_read isThere (Step.readStep_eq_ok read).2) .say
  | null | bool | num | str | arr => cases loaded

/-! ### Loaded steps -/

namespace Step

@[simp] theorem header_normalize (step : Step) :
    step.normalize.header = step.header.normalize step.kind := by
  cases step <;> rfl

theorem header_of_loadOwn {vocabulary : Vocabulary} {entries : Fields} {kind : StepKind}
    {own : Step} (loaded : loadOwn vocabulary entries kind = .ok own) :
    readFields Header.fields [] .blank entries = .ok own.header := by
  cases kind with
  | gather =>
    obtain ⟨header, digits, prompts, loadedGather, _, rfl⟩ := loadOwn_gather_eq_ok loaded
    exact Gather.header_of_load loadedGather
  | dial =>
    obtain ⟨header, read, _, rfl⟩ := loadDial_eq_ok loaded
    exact read
  | externalService =>
    obtain ⟨header, read, _, rfl⟩ := loadService_eq_ok loaded
    exact read
  | say | play | redirect | hangUp | reject | pause =>
    rw [loadOwn] at loaded
    obtain ⟨header, read, _, rfl⟩ := loadPlain_eq_ok loaded
    exact read

theorem iface_of_load {vocabulary : Vocabulary} {stored : Json} {step : Step} {contents : Fields}
    (isThere : stored.get? "iface" = some (.obj contents))
    (loaded : load vocabulary stored = .ok step) : step.header.iface = .obj contents := by
  obtain ⟨entries, kind, own, rfl, _, loadedOwn, rfl⟩ := exists_own_of_load loaded
  rw [header_normalize]
  exact Header.iface_normalize_of_obj
    (Header.iface_of_read isThere (header_of_loadOwn loadedOwn)) own.kind

end Step

theorem Gather.iface_of_load {entries : Fields} {header : Header} {digits : Gather}
    {contents : Fields}
    (isThere : ((entries.lookup "validation").bind (Json.get? "messageStep")).bind
      (Json.get? "iface") = some (.obj contents))
    (loaded : Step.loadGather entries = .ok (header, digits)) :
    digits.validation.announcement.header.iface = .obj contents := by
  obtain ⟨⟨_, start⟩, _, rest⟩ := bind_eq_ok_iff.mp loaded
  obtain ⟨_, loadedAnnouncement, isResult⟩ := bind_eq_ok_iff.mp rest
  cases isResult
  obtain ⟨stored, isStored, found⟩ := Option.bind_eq_some_iff.mp isThere
  rw [loadAnnouncement, isStored] at loadedAnnouncement
  obtain ⟨announcement, loadedStored, isDigits⟩ := bind_eq_ok_iff.mp loadedAnnouncement
  cases isDigits
  exact Announcement.iface_of_load found loadedStored

namespace EditorPlace

theorem Stored.held? {vocabulary : Vocabulary} {contents : Fields} {place : EditorPlace}
    {stored : Json} (isStored : Stored vocabulary (.obj contents) place stored) {step : Step}
    (loaded : Step.load vocabulary stored = .ok step) : place.held? step = some (.obj contents) := by
  induction isStored generalizing step with
  | own isThere => exact congrArg some (Step.iface_of_load isThere loaded)
  | announcement isGather isThere =>
    obtain ⟨entries, _, _, rfl, isKind, _, _⟩ := Step.exists_own_of_load loaded
    obtain ⟨header, digits, prompts, loadedGather, _, rfl⟩ :=
      ((Step.promptsAlone isGather).loaded step).mp loaded
    exact congrArg some
      (Header.iface_normalize_of_obj (Gather.iface_of_load isThere loadedGather) .say)
  | @prompt stored item index place isGather isItem _ ih =>
    obtain ⟨entries, _, _, rfl, isKind, _, _⟩ := Step.exists_own_of_load loaded
    obtain ⟨header, digits, prompts, _, each, rfl⟩ :=
      ((Step.promptsAlone isGather).loaded step).mp loaded
    obtain ⟨prompt, isPrompt, loadedItem⟩ := exists_getElem?_of_forall₂ each isItem
    show prompts[index]?.bind place.held? = _
    rw [isPrompt]
    exact ih loadedItem

end EditorPlace

/-! ### Canonical forms -/

theorem Announcement.get?_iface_canonical {announcement : Announcement} {contents : Fields}
    (isObject : announcement.header.iface = .obj contents) :
    announcement.canonical.get? "iface" = some (.obj contents) :=
  (Header.lookup_iface_entries .say _ _).trans
    (congrArg some (Header.iface_normalize_of_obj isObject .say))

theorem Step.get?_iface_canonical {step : Step} {contents : Fields}
    (isObject : step.header.iface = .obj contents) :
    step.canonical.get? "iface" = some (.obj contents) := by
  cases step with
  | act header action =>
    exact (Header.lookup_iface_entries _ _ _).trans
      (congrArg some (Header.iface_normalize_of_obj isObject _))
  | gather header digits prompts =>
    exact (Header.lookup_iface_entries _ _ _).trans
      (congrArg some (Header.iface_normalize_of_obj isObject _))

theorem Step.get?_validation_canonical (header : Header) (digits : Gather) (prompts : List Step) :
    ((gather header digits prompts).canonical.get? "validation").bind (Json.get? "messageStep") =
      some digits.validation.announcement.canonical := by
  rw [get?_canonical_gather (by decide), Gather.lookup_validation_entries, Gather.validation_prune,
    ← Announcement.canonical_normalize]
  exact Fields.lookup_insert_self _ _ _

/-- An object that a step has at a place stands there in the canonical form. -/
theorem EditorPlace.stored_canonical {place : EditorPlace} {contents : Fields} {step : Step}
    (isHeld : place.held? step = some (.obj contents)) :
    Stored .standard (.obj contents) place step.canonical := by
  induction place generalizing step with
  | own => exact .own (Step.get?_iface_canonical (Option.some.inj isHeld))
  | announcement =>
    cases step with
    | act header action => cases isHeld
    | gather header digits prompts =>
      refine .announcement (Step.storedKind_entries rfl _ _) ?_
      rw [Step.get?_validation_canonical]
      exact Announcement.get?_iface_canonical (Option.some.inj isHeld)
  | prompt index place ih =>
    obtain ⟨prompt, isPrompt, inPrompt⟩ := Option.bind_eq_some_iff.mp isHeld
    cases step with
    | act header action => cases isPrompt
    | gather header digits prompts =>
      refine .prompt (Step.storedKind_entries rfl _ _) ?_ (ih inPrompt)
      rw [Json.storedSteps_eq (Step.get?_steps_canonical header digits prompts), List.getElem?_map]
      exact congrArg (Option.map Step.canonical) isPrompt

end IvrFlow
