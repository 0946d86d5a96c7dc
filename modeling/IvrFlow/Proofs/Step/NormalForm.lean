import IvrFlow.Proofs.Path.RoundTrip
import IvrFlow.Step.Stored

/-!
The normal form of a step: the step normalized, and settled, so that nothing is left in it that is
not stored. Settling a step, at every depth, makes the branches that are not chosen as on a new step,
and leaves nothing entered on its open paths. Normalizing is idempotent, and neither normalizing nor
settling shows in the canonical form.
-/

namespace IvrFlow

/-! ### Settled parts -/

/-- Audio with the source that is not chosen as on a new step. -/
def Play.settle (play : Play) : Play :=
  match play.source with
  | .local => { play with remoteAudio := some .blank }
  | .remote => { play with localAudio := some .blank }

/-- Gathering with what the digits are not taken for as on a new step. -/
def Gather.settle (gather : Gather) : Gather :=
  match gather.gatherType with
  | .menu => { gather with collectDigits := some .blank }
  | .collectDigits => { gather with menu := some .blank }

/-- A call with nothing entered on its paths since their last commits. -/
def Service.settle (service : Service) : Service :=
  { service with
    assignments := service.assignments.map Assignment.settle
    nextPath := service.nextPath.settle }

/-- An action with nothing in it that is not stored. -/
def Action.settle : Action → Action
  | .play body => .play body.settle
  | .externalService body => .externalService body.settle
  | action => action

namespace Step

mutual

/-- A step with nothing in it, at any depth, that is not stored. -/
def settle : Step → Step
  | .act header action => .act header action.settle
  | .gather header digits prompts => .gather header digits.settle (settleAll prompts)

/-- Steps with nothing in them that is not stored. -/
def settleAll : List Step → List Step
  | [] => []
  | step :: rest => settle step :: settleAll rest

end

@[simp] theorem settleAll_eq_map : ∀ steps : List Step, settleAll steps = steps.map settle
  | [] => rfl
  | step :: rest => by rw [settleAll, settleAll_eq_map rest, List.map_cons]

/-- The normal form of a step: what is left of it when it is stored and loaded again. -/
def normalForm (step : Step) : Step := step.normalize.settle

@[simp] theorem normalForm_gather (header : Header) (digits : Gather) (prompts : List Step) :
    normalForm (.gather header digits prompts) =
      .gather (header.normalize .gather) digits.normalize.settle (prompts.map normalForm) := by
  simp only [normalForm, normalize, settle, normalizeAll_eq_map, settleAll_eq_map, List.map_map]
  rfl

@[simp] theorem prompts_normalForm (step : Step) :
    step.normalForm.prompts = step.prompts.map normalForm := by
  cases step with
  | act header action => rfl
  | gather header digits prompts => rw [normalForm_gather, Step.prompts, Step.prompts]

@[simp] theorem name_normalForm (step : Step) : step.normalForm.name = step.name := by
  cases step <;> rfl

/-- Induction on the depth of a step: a gather step comes after its prompts. -/
@[elab_as_elim]
theorem induction {motive : Step → Prop}
    (act : ∀ header action, motive (.act header action))
    (gather : ∀ header digits prompts, (∀ prompt ∈ prompts, motive prompt) →
      motive (.gather header digits prompts)) (step : Step) : motive step :=
  match step with
  | .act header action => act header action
  | .gather header digits prompts =>
    gather header digits prompts fun prompt _ => induction act gather prompt

end Step

@[simp] theorem Action.kind_settle (action : Action) : action.settle.kind = action.kind := by
  cases action <;> rfl

/-! ### Normal headers -/

/-- A header with nothing in it to mend: it has a label, the title of its kind, and an object for the
editor. -/
structure Header.Normal (kind : StepKind) (header : Header) : Prop where
  label : header.label ≠ ""
  title : header.title = kind.title
  iface : header.iface.isObject = true

namespace Header

variable {kind : StepKind} {header : Header}

theorem normal_normalize (kind : StepKind) (header : Header) :
    (header.normalize kind).Normal kind where
  label := by
    simp only [normalize]
    split
    · exact kind.defaultLabel_ne_empty
    · rename_i named
      exact named
  title := rfl
  iface := by
    simp only [normalize]
    split
    · rename_i isObject
      exact isObject
    · rfl

theorem Normal.normalize_eq (normal : header.Normal kind) : header.normalize kind = header := by
  simp only [normalize, if_neg normal.label, ← normal.title, if_pos normal.iface]

@[simp] theorem normalize_normalize (kind : StepKind) (header : Header) :
    (header.normalize kind).normalize kind = header.normalize kind :=
  (header.normal_normalize kind).normalize_eq

end Header

/-! ### Normalizing twice -/

@[simp] theorem unlessEmpty_unlessEmpty (text : Option String) :
    unlessEmpty (unlessEmpty text) = unlessEmpty text := by
  simp only [unlessEmpty, Option.filter_filter, Bool.and_self]

@[simp] theorem Say.normalize_normalize (say : Say) : say.normalize.normalize = say.normalize := by
  simp only [Say.normalize, unlessEmpty_unlessEmpty]

@[simp] theorem Redirect.normalize_normalize (redirect : Redirect) :
    redirect.normalize.normalize = redirect.normalize := by
  simp only [Redirect.normalize, unlessEmpty_unlessEmpty]

@[simp] theorem Announcement.normalize_normalize (announcement : Announcement) :
    announcement.normalize.normalize = announcement.normalize := by
  simp only [Announcement.normalize, Header.normalize_normalize, Say.normalize_normalize]

/-- The view is made from the pattern at most once: afterwards it is there, and it is empty beside a
pattern no more. -/
@[simp] theorem Validation.normalize_normalize (validation : Validation) :
    validation.normalize.normalize = validation.normalize := by
  simp only [Validation.normalize, Announcement.normalize_normalize, Validation.mk.injEq,
    Option.some.injEq, true_and]
  unfold reconciledView
  cases validation.view with
  | none =>
    simp only
    split
    · rfl
    · rfl
  | some view =>
    simp only
    split
    · split
      · rfl
      · rfl
    · rfl

@[simp] theorem Play.normalize_normalize (play : Play) :
    play.normalize.normalize = play.normalize := rfl

@[simp] theorem Gather.normalize_normalize (gather : Gather) :
    gather.normalize.normalize = gather.normalize := by
  simp only [Gather.normalize, Validation.normalize_normalize, Option.getD_some]

@[simp] theorem Action.normalize_normalize (action : Action) :
    action.normalize.normalize = action.normalize := by
  cases action with
  | say body => exact congrArg Action.say body.normalize_normalize
  | play body => exact congrArg Action.play body.normalize_normalize
  | redirect body => exact congrArg Action.redirect body.normalize_normalize
  | dial | hangUp | reject | pause | externalService => rfl

/-- **Normalizing is idempotent, at every depth.** -/
@[simp] theorem Step.normalize_normalize (step : Step) :
    step.normalize.normalize = step.normalize := by
  induction step using Step.induction with
  | act header action =>
    simp [normalize]
  | gather header digits prompts ih =>
    simpa [normalize] using ih

/-! ### Normal forms are normal -/

@[simp] theorem Gather.normalize_settle_normalize (gather : Gather) :
    gather.normalize.settle.normalize = gather.normalize.settle := by
  have validation := gather.validation.normalize_normalize
  obtain ⟨_, _, _, _, _, _, gatherType, _, _⟩ := gather
  cases gatherType <;> simp_all [normalize, settle]

@[simp] theorem Action.normalize_settle_normalize (action : Action) :
    action.normalize.settle.normalize = action.normalize.settle := by
  cases action with
  | play body =>
    obtain ⟨source, repeats, localAudio, remoteAudio⟩ := body
    cases source <;> rfl
  | say body => exact congrArg Action.say body.normalize_normalize
  | redirect body => exact congrArg Action.redirect body.normalize_normalize
  | dial | hangUp | reject | pause | externalService => rfl

@[simp] theorem Step.normalize_normalForm (step : Step) :
    step.normalForm.normalize = step.normalForm := by
  induction step using Step.induction with
  | act header action =>
    simp [normalForm, normalize, settle]
  | gather header digits prompts ih =>
    simpa [normalize] using ih

/-! ### What the canonical form does not show -/

@[simp] theorem Play.prune_normalize_settle (play : Play) :
    play.settle.normalize.prune = play.normalize.prune := by
  obtain ⟨source, repeats, localAudio, remoteAudio⟩ := play
  cases source <;> rfl

@[simp] theorem Gather.prune_normalize_settle (gather : Gather) :
    gather.settle.normalize.prune = gather.normalize.prune := by
  obtain ⟨_, _, _, _, _, _, gatherType, _, _⟩ := gather
  cases gatherType <;> rfl

@[simp] theorem Service.entries_settle (service : Service) :
    service.settle.entries = service.entries := by
  have assignments : (service.assignments.map Assignment.settle).map Assignment.toJson =
      service.assignments.map Assignment.toJson := by simp
  simp only [Service.entries, Service.settle, assignments]
  rfl

@[simp] theorem Action.entries_settle (action : Action) :
    action.settle.normalize.prune.entries = action.normalize.prune.entries := by
  cases action with
  | play body =>
    exact congrArg (writeFields Play.fields) body.prune_normalize_settle
  | externalService body => exact body.entries_settle
  | say | dial | redirect | hangUp | reject | pause => rfl

namespace Step

/-- Normalizing does not show in the canonical form. -/
@[simp] theorem canonical_normalize (step : Step) : step.normalize.canonical = step.canonical := by
  induction step using Step.induction with
  | act header action =>
    simp [normalize, canonical]
  | gather header digits prompts ih =>
    have prompts : (prompts.map normalize).map canonical = prompts.map canonical := by simpa using ih
    simp only [normalize, canonical, normalizeAll_eq_map, canonicalAll_eq_map, prompts,
      Header.normalize_normalize, Gather.normalize_normalize]

/-- Settling does not show in the canonical form: what it changes is not stored. -/
@[simp] theorem canonical_settle (step : Step) : step.settle.canonical = step.canonical := by
  induction step using Step.induction with
  | act header action =>
    simp [settle, canonical]
  | gather header digits prompts ih =>
    have prompts : (prompts.map settle).map canonical = prompts.map canonical := by simpa using ih
    simp only [settle, canonical, settleAll_eq_map, canonicalAll_eq_map, prompts,
      Gather.prune_normalize_settle]

/-- The normal form of a step has the canonical form of the step. -/
@[simp] theorem canonical_normalForm (step : Step) :
    step.normalForm.canonical = step.canonical := by
  rw [normalForm, canonical_settle, canonical_normalize]

end Step

end IvrFlow
