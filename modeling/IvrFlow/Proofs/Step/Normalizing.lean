import IvrFlow.Proofs.Step.Prompts

/-!
What normalizing does to a step. It retains what has been given: kinds, names, labels, editor data
and the order of prompts (`Retains`). It leaves no header to mend, of which the title always follows
the kind, and no step without one of its branches (`Whole`). Doing it again, or before storing, makes
no difference, and a step that is loaded has been through it (`normalize_absorbed`).
-/

namespace IvrFlow

/-! ### What is retained -/

/-- What one header retains of another: its name, a label that is not empty, and editor data that are
an object. -/
structure Header.Retains (before after : Header) : Prop where
  name : after.name = before.name
  label : before.label ≠ "" → after.label = before.label
  iface : before.iface.isObject = true → after.iface = before.iface

theorem Header.retains_normalize (kind : StepKind) (header : Header) :
    header.Retains (header.normalize kind) where
  name := rfl
  label named := if_neg named
  iface isObject := if_pos isObject

namespace Step

/-- What one step retains of another, at every depth: its kind, its header and the header of its
announcement, and the number and the order of its prompts. -/
inductive Retains : Step → Step → Prop where
  | act {header after : Header} {action changed : Action} :
      header.Retains after → changed.kind = action.kind →
      Retains (.act header action) (.act after changed)
  | gather {header after : Header} {digits changed : Gather} {prompts others : List Step} :
      header.Retains after →
      digits.validation.announcement.header.Retains changed.validation.announcement.header →
      List.Forall₂ Retains prompts others →
      Retains (.gather header digits prompts) (.gather after changed others)

theorem retains_normalize (step : Step) : step.Retains step.normalize := by
  induction step using Step.induction with
  | act header action => exact .act (header.retains_normalize action.kind) action.kind_normalize
  | gather header digits prompts ih =>
    rw [normalize, normalizeAll_eq_map]
    refine .gather (header.retains_normalize .gather) (Header.retains_normalize .say _) ?_
    exact List.forall₂_map_right_iff.mpr (List.forall₂_same.mpr ih)

end Step

/-! ### Headers and branches -/

/-- An action with no branch missing: audio has both sources. -/
def Action.Whole : Action → Prop
  | .play body => body.localAudio.isSome ∧ body.remoteAudio.isSome
  | _ => True

/-- Gathering with no branch missing, there being both a menu and free input, and with nothing to
mend in the header of its announcement. -/
structure Gather.Whole (gather : Gather) : Prop where
  menu : gather.menu.isSome
  collectDigits : gather.collectDigits.isSome
  announcement : gather.validation.announcement.header.Normal .say

theorem Action.whole_normalize (action : Action) : action.normalize.Whole := by
  cases action with
  | play body => exact ⟨rfl, rfl⟩
  | say | dial | redirect | hangUp | reject | pause | externalService => exact trivial

theorem Gather.whole_normalize (gather : Gather) : gather.normalize.Whole where
  menu := rfl
  collectDigits := rfl
  announcement := Header.normal_normalize .say _

namespace Step

/-- A step with no header to mend and no branch missing, at any depth. -/
inductive Whole : Step → Prop where
  | act {header : Header} {action : Action} :
      header.Normal action.kind → action.Whole → Whole (.act header action)
  | gather {header : Header} {digits : Gather} {prompts : List Step} :
      header.Normal .gather → digits.Whole → (∀ prompt ∈ prompts, Whole prompt) →
      Whole (.gather header digits prompts)

theorem whole_normalize (step : Step) : step.normalize.Whole := by
  induction step using Step.induction with
  | act header action =>
    have normal : (header.normalize action.kind).Normal action.normalize.kind := by
      rw [Action.kind_normalize]
      exact header.normal_normalize action.kind
    exact .act normal action.whole_normalize
  | gather header digits prompts ih =>
    rw [normalize, normalizeAll_eq_map]
    exact .gather (header.normal_normalize .gather) digits.whole_normalize
      (List.forall_mem_map.mpr ih)

/-- A step that is loaded has no header to mend and no branch missing. -/
theorem whole_of_load {vocabulary : Vocabulary} {stored : Json} {step : Step}
    (loaded : load vocabulary stored = .ok step) : step.Whole := by
  rw [← normalize_of_load loaded]
  exact step.whole_normalize

/-! ### Normalizing once -/

/-- **Normalizing is done once and for all, and takes nothing away.** Of any step, normalizing it
again gives the same, it is stored as it would be without, what has been given with it is retained,
and afterwards it is whole: no header is left to mend, and no branch is missing. A step that is
loaded, with whatever vocabulary, is normal and whole. -/
theorem normalize_absorbed :
    (∀ step : Step, step.normalize.normalize = step.normalize ∧
        step.normalize.canonical = step.canonical ∧ step.Retains step.normalize ∧
        step.normalize.Whole) ∧
      ∀ vocabulary stored step, load vocabulary stored = .ok step →
        step.normalize = step ∧ step.Whole :=
  ⟨fun step => ⟨step.normalize_normalize, step.canonical_normalize, step.retains_normalize,
      step.whole_normalize⟩,
    fun _ _ _ loaded => ⟨normalize_of_load loaded, whole_of_load loaded⟩⟩

/-- A stored menu without free input and with the title of a dial step, and with audio from a place
that is not stored. -/
def storedSparse : Json :=
  .obj [("collectDigits", .null), ("kind", .str "gather"), ("name", .str "ask"),
    ("steps", .arr [.obj [("kind", .str "play"), ("local", .null), ("playType", .str "remote")]]),
    ("title", .str StepKind.dial.title)]

/-- The menu with its own title, and with audio from nowhere yet. -/
def sparse : Step :=
  .gather (.new .gather "ask") Gather.new.normalize
    [.act (.new .play "") (.play { Play.new with source := .remote })]

theorem normalize_absorbed_sparse :
    load .standard storedSparse = .ok sparse ∧ sparse.normalize = sparse ∧ sparse.Whole := by
  have loaded : load .standard storedSparse = .ok sparse := rfl
  obtain ⟨_, absorbed⟩ := normalize_absorbed
  exact ⟨loaded, absorbed _ _ _ loaded⟩

end Step

end IvrFlow
