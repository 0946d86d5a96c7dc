import IvrFlow.Proofs.Step.NormalForm
import IvrFlow.Step.Edit

/-!
Choices between two branches: of the audio sources of a play step, and between the menu and the free
input of a gather step. What the branches hold outlasts any turns of choosing, normalizing and
storing, and what is stored under a choice does not depend on them (`Choice`). What a branch holds
that is not chosen, at any depth, is not stored (`UsedAlike`).
-/

namespace IvrFlow

namespace Step

/-! ### Turns -/

/-- What may happen to a step between whose branches is chosen. -/
inductive Turn (α : Type) where
  | choose (value : α)
  | normalize
  | store
deriving DecidableEq

/-- A choice between branches, in the steps that have it. Choosing anew overrides the choice, whether
the step has been normalized or not, and leaves what the branches hold. Normalizing fills the
branches that hold nothing. -/
structure Choice (α β : Type) where
  choose : α → Step → Step
  branches : Step → Option β
  fill : β → β
  choose_choose (value other : α) (step : Step) :
    choose value (choose other step) = choose value step
  normalize_choose (value : α) (step : Step) :
    (choose value step).normalize = choose value step.normalize
  branches_choose (value : α) (step : Step) : branches (choose value step) = branches step
  branches_normalize (step : Step) : branches step.normalize = (branches step).map fill
  fill_fill (held : β) : fill (fill held) = fill held

namespace Choice

section

variable {α β : Type} (choice : Choice α β)

/-- The step after a turn. Storing it only reads it. -/
def turn (step : Step) : Turn α → Step
  | .choose value => choice.choose value step
  | .normalize => step.normalize
  | .store => step

/-- The step after some turns. -/
def after (turns : List (Turn α)) (step : Step) : Step := turns.foldl choice.turn step

/-- Before it is chosen anew, a turn makes no difference to what is stored. -/
theorem canonical_choose_turn (value : α) (step : Step) (turn : Turn α) :
    (choice.choose value (choice.turn step turn)).canonical =
      (choice.choose value step).canonical := by
  cases turn with
  | choose other => rw [Choice.turn, choice.choose_choose]
  | normalize => rw [Choice.turn, ← choice.normalize_choose, canonical_normalize]
  | store => rfl

theorem canonical_choose_after (value : α) (turns : List (Turn α)) (step : Step) :
    (choice.choose value (choice.after turns step)).canonical =
      (choice.choose value step).canonical := by
  induction turns generalizing step with
  | nil => rfl
  | cons turn rest ih => exact (ih (choice.turn step turn)).trans (choice.canonical_choose_turn ..)

/-- What the branches hold stays. What they lack is filled in by the first normalizing. -/
theorem branches_after [DecidableEq α] (turns : List (Turn α)) (step : Step) :
    choice.branches (choice.after turns step) =
      if .normalize ∈ turns then (choice.branches step).map choice.fill
      else choice.branches step := by
  have filled (held : Option β) : (held.map choice.fill).map choice.fill = held.map choice.fill := by
    rw [Option.map_map, show choice.fill ∘ choice.fill = choice.fill from funext choice.fill_fill]
  induction turns generalizing step with
  | nil => rfl
  | cons turn rest ih =>
    rw [after, List.foldl_cons]
    refine (ih (choice.turn step turn)).trans ?_
    cases turn with
    | choose value => simp [Choice.turn, choice.branches_choose]
    | normalize => simp only [Choice.turn, choice.branches_normalize, filled, List.mem_cons,
        true_or, if_true, ite_self]
    | store => simp [Choice.turn]

end

/-! ### The choices there are -/

/-- The choice of an audio source, between a local file and a remote one. -/
def audio : Choice AudioSource (Option LocalAudio × Option RemoteAudio) where
  choose := chooseSource
  branches
    | .act _ (.play body) => some (body.localAudio, body.remoteAudio)
    | _ => none
  fill held := (some (held.1.getD .blank), some (held.2.getD .blank))
  choose_choose _ _
    | .act _ action => by cases action <;> rfl
    | .gather _ _ _ => rfl
  normalize_choose _
    | .act _ action => by cases action <;> rfl
    | .gather _ _ _ => rfl
  branches_choose _
    | .act _ action => by cases action <;> rfl
    | .gather _ _ _ => rfl
  branches_normalize
    | .act _ action => by cases action <;> rfl
    | .gather _ _ _ => rfl
  fill_fill _ := rfl

/-- The choice of what digits are taken for, a menu or free input. -/
def input : Choice GatherType (Option Menu × Option CollectDigits) where
  choose := chooseInput
  branches
    | .gather _ digits _ => some (digits.menu, digits.collectDigits)
    | .act _ _ => none
  fill held := (some (held.1.getD .blank), some (held.2.getD .blank))
  choose_choose _ _ step := by cases step <;> rfl
  normalize_choose _ step := by cases step <;> rfl
  branches_choose _ step := by cases step <;> rfl
  branches_normalize step := by cases step <;> rfl
  fill_fill _ := rfl

/-! ### Choices at a depth -/

/-- A change that commutes with normalizing does so at every position. -/
theorem map_normalize_modify {change : Step → Step}
    (commutes : ∀ step, (change step).normalize = change step.normalize) (index : Nat)
    (steps : List Step) :
    (steps.modify index change).map normalize = (steps.map normalize).modify index change := by
  refine List.ext_getElem? fun position => ?_
  simp only [List.getElem?_map, List.getElem?_modify, Option.map_eq_map, Option.map_map]
  congr 1
  funext step
  by_cases here : index = position
  · simp only [Function.comp_apply, if_pos here, commutes]
  · simp only [Function.comp_apply, if_neg here]

section

variable {α β : Type}

/-- A choice in the prompt at a position. -/
def inPrompt (index : Nat) (choice : Choice α β) : Choice α β where
  choose value := editPrompts (·.modify index (choice.choose value))
  branches step := step.prompts[index]?.bind choice.branches
  fill := choice.fill
  choose_choose value other step := by
    have overridden : choice.choose value ∘ choice.choose other = choice.choose value :=
      funext (choice.choose_choose value other)
    cases step with
    | act header action => rfl
    | gather header digits prompts =>
      simp only [editPrompts, List.modify_modify_eq, overridden]
  normalize_choose value step := by
    cases step with
    | act header action => rfl
    | gather header digits prompts =>
      simp only [editPrompts, normalize, normalizeAll_eq_map,
        map_normalize_modify (choice.normalize_choose value)]
  branches_choose value step := by
    cases step with
    | act header action => rfl
    | gather header digits prompts =>
      have unchanged : choice.branches ∘ choice.choose value = choice.branches :=
        funext (choice.branches_choose value)
      simp only [editPrompts, Step.prompts, List.getElem?_modify_eq, Option.map_eq_map,
        Option.bind_map, unchanged]
  branches_normalize step := by
    have filled : choice.branches ∘ normalize = Option.map choice.fill ∘ choice.branches :=
      funext choice.branches_normalize
    rw [prompts_normalize, List.getElem?_map, Option.bind_map, filled, Option.map_bind]
  fill_fill := choice.fill_fill

/-- A choice at a place, in a prompt of a prompt and so on down. -/
def within (place : List Nat) (choice : Choice α β) : Choice α β := place.foldr inPrompt choice

end

end Choice

end Step

/-! ### What is not chosen -/

/-- Whether audio differs at most in the source that is not chosen. -/
inductive Play.UsedAlike : Play → Play → Prop where
  | local {play : Play} (unused : Option RemoteAudio) :
      play.source = .local → UsedAlike play { play with remoteAudio := unused }
  | remote {play : Play} (unused : Option LocalAudio) :
      play.source = .remote → UsedAlike play { play with localAudio := unused }

/-- Whether gathering differs at most in what the digits are not taken for. -/
inductive Gather.UsedAlike : Gather → Gather → Prop where
  | menu {gather : Gather} (unused : Option CollectDigits) :
      gather.gatherType = .menu → UsedAlike gather { gather with collectDigits := unused }
  | collectDigits {gather : Gather} (unused : Option Menu) :
      gather.gatherType = .collectDigits → UsedAlike gather { gather with menu := unused }

/-- Whether actions differ at most in the branch that is not chosen. -/
inductive Action.UsedAlike : Action → Action → Prop where
  | same (action : Action) : UsedAlike action action
  | play {play other : Play} : play.UsedAlike other → UsedAlike (.play play) (.play other)

theorem Play.UsedAlike.prune_eq {play other : Play} (alike : play.UsedAlike other) :
    play.normalize.prune = other.normalize.prune := by
  cases alike with
  | «local» _ chosen => simp only [normalize, prune, chosen]
  | remote _ chosen => simp only [normalize, prune, chosen]

theorem Gather.UsedAlike.prune_eq {gather other : Gather} (alike : gather.UsedAlike other) :
    gather.normalize.prune = other.normalize.prune := by
  cases alike with
  | menu _ chosen => simp only [normalize, prune, chosen]
  | collectDigits _ chosen => simp only [normalize, prune, chosen]

theorem Action.UsedAlike.prune_eq {action other : Action} (alike : action.UsedAlike other) :
    action.normalize.prune = other.normalize.prune := by
  cases alike with
  | same => rfl
  | play alike => exact congrArg Action.play alike.prune_eq

theorem Action.UsedAlike.kind_eq {action other : Action} (alike : action.UsedAlike other) :
    action.kind = other.kind := by
  cases alike with
  | same => rfl
  | play _ => rfl

namespace Step

/-- Whether steps differ at most in branches that are not chosen, at whatever depth. -/
inductive UsedAlike : Step → Step → Prop where
  | act {header : Header} {action other : Action} :
      action.UsedAlike other → UsedAlike (.act header action) (.act header other)
  | gather {header : Header} {digits unlike : Gather} {prompts others : List Step} :
      digits.UsedAlike unlike → List.Forall₂ UsedAlike prompts others →
      UsedAlike (.gather header digits prompts) (.gather header unlike others)

/-- What a branch holds that is not chosen is not stored. -/
theorem canonical_eq_of_usedAlike {step other : Step} (alike : step.UsedAlike other) :
    step.canonical = other.canonical := by
  induction step using Step.induction generalizing other with
  | act header action =>
    cases alike with
    | act alike => rw [canonical, canonical, alike.prune_eq, alike.kind_eq]
  | gather header digits prompts ih =>
    cases alike with
    | @gather _ _ unlike _ others alike each =>
      have stored : prompts.map canonical = others.map canonical := by
        rw [← List.forall₂_eq_eq_eq, List.forall₂_map_left_iff, List.forall₂_map_right_iff]
        exact ((List.forall₂_and_left _ _).mpr ⟨ih, each⟩).imp fun _ _ both => both.1 both.2
      rw [canonical, canonical, canonicalAll_eq_map, canonicalAll_eq_map, alike.prune_eq, stored]

/-- **What is not chosen is kept and not stored.** Choosing is assigning the word for the choice. Any
turns of choosing, normalizing and storing, of a step or of a prompt at any place in it, leave what
the two branches hold, but for what the first normalizing fills in; so what is stored once it is
chosen anew is what would have been stored before them. Two steps are stored alike that differ in
nothing but branches that are not chosen. -/
theorem branches_kept_unseen :
    (∀ source header body, assign "playType" (.str source.word) (.act header (.play body)) =
        .ok (chooseSource source (.act header (.play body)))) ∧
      (∀ gatherType header digits prompts,
        assign "gatherType" (.str gatherType.word) (.gather header digits prompts) =
          .ok (chooseInput gatherType (.gather header digits prompts))) ∧
      (∀ place turns step,
        let audio := Choice.audio.within place
        audio.branches (audio.after turns step) =
            (if .normalize ∈ turns then (audio.branches step).map audio.fill
              else audio.branches step) ∧
          ∀ source, (audio.choose source (audio.after turns step)).canonical =
            (audio.choose source step).canonical) ∧
      (∀ place turns step,
        let input := Choice.input.within place
        input.branches (input.after turns step) =
            (if .normalize ∈ turns then (input.branches step).map input.fill
              else input.branches step) ∧
          ∀ gatherType, (input.choose gatherType (input.after turns step)).canonical =
            (input.choose gatherType step).canonical) ∧
      ∀ step other : Step, step.UsedAlike other → step.canonical = other.canonical := by
  refine ⟨fun source _ _ => ?_, fun gatherType _ _ _ => ?_, fun place turns step => ?_,
    fun place turns step => ?_, fun _ _ => canonical_eq_of_usedAlike⟩
  · cases source with
    | «local» => rfl
    | remote => rfl
  · cases gatherType with
    | menu => rfl
    | collectDigits => rfl
  · exact ⟨Choice.branches_after _ turns step, fun source =>
      Choice.canonical_choose_after _ source turns step⟩
  · exact ⟨Choice.branches_after _ turns step, fun gatherType =>
      Choice.canonical_choose_after _ gatherType turns step⟩

/-- A menu that keeps the free input it has been before, and in a prompt, the address of audio that is
now a local file. -/
def menuAfterInput : Step :=
  .gather (.new .gather "ask") { Gather.new with collectDigits := some ⟨"pin", "check", .global⟩ }
    [.act (.new .play "hear")
      (.play { Play.new with remoteAudio := some ⟨"http://media.example.com/hello.wav"⟩ })]

/-- The menu without what it keeps. -/
def menuAlone : Step :=
  .gather (.new .gather "ask") .new [.act (.new .play "hear") (.play .new)]

theorem branches_kept_unseen_menu :
    menuAfterInput ≠ menuAlone ∧ menuAfterInput.UsedAlike menuAlone ∧
      menuAfterInput.canonical = menuAlone.canonical := by
  have alike : menuAfterInput.UsedAlike menuAlone :=
    .gather (.menu (some .blank) rfl) (.cons (.act (.play (.local (some .blank) rfl))) .nil)
  obtain ⟨_, _, _, _, unseen⟩ := branches_kept_unseen
  exact ⟨by decide, alike, unseen _ _ alike⟩

end Step

end IvrFlow
