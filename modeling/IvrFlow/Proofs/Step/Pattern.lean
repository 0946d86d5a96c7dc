import IvrFlow.Proofs.Step.Loading

/-!
Patterns of gather steps. The view that an editor has of a pattern is made from the pattern at most
once, the first time a step is normalized or stored; after that the pattern and its view stay
(`Validation.KeepsPattern`). So it is with every gather step, at every depth, however often the whole
is normalized, or stored and loaded again (`authored_pattern_kept`).
-/

namespace IvrFlow

/-! ### One validation -/

/-- What becomes of a pattern and its view while nobody edits them. The pattern stays, and so does a
view that shows something, or that has nothing to show. Otherwise the view is made from the pattern. -/
structure Validation.KeepsPattern (before after : Validation) : Prop where
  pattern : after.pattern = before.pattern
  present : after.view.isSome
  authored (view : PatternView) : before.view = some view → view.pattern ≠ "" →
    after.view = some view
  missing : before.view = none → after.view = some ⟨before.pattern, .regex⟩
  emptied (view : PatternView) : before.view = some view → view.pattern = "" →
    before.pattern ≠ "" → after.view = some ⟨before.pattern, .regex⟩
  blank (view : PatternView) : before.view = some view → view.pattern = "" →
    before.pattern = "" → after.view = some view

namespace Validation

theorem keepsPattern_normalize (validation : Validation) :
    validation.KeepsPattern validation.normalize where
  pattern := rfl
  present := rfl
  authored view isView shown := by
    simp only [normalize, reconciledView, isView, shown, false_and, if_false]
  missing isMissing := by
    simp only [normalize, reconciledView, isMissing]
  emptied view isView isEmpty given := by
    simp only [normalize, reconciledView, isView, isEmpty, ne_eq, given, not_false_eq_true,
      and_self, if_true]
  blank view isView _ isBlank := by
    simp only [normalize, reconciledView, isView, isBlank, ne_eq, not_true_eq_false, and_false,
      if_false]

namespace KeepsPattern

variable {before between after : Validation}

/-- A view that has been kept or made is not empty beside a pattern. -/
theorem shown (kept : before.KeepsPattern between) {view : PatternView}
    (isView : between.view = some view) (isEmpty : view.pattern = "") : between.pattern = "" := by
  rw [kept.pattern]
  by_contra given
  cases isBefore : before.view with
  | none =>
    cases isView.symm.trans (kept.missing isBefore)
    exact given isEmpty
  | some earlier =>
    by_cases earlierEmpty : earlier.pattern = ""
    · cases isView.symm.trans (kept.emptied earlier isBefore earlierEmpty given)
      exact given isEmpty
    · cases isView.symm.trans (kept.authored earlier isBefore earlierEmpty)
      exact earlierEmpty isEmpty

/-- A view that has been kept or made stays. -/
theorem view_eq (kept : before.KeepsPattern between) (later : between.KeepsPattern after) :
    after.view = between.view := by
  obtain ⟨view, isView⟩ := Option.isSome_iff_exists.mp kept.present
  rw [isView]
  by_cases isEmpty : view.pattern = ""
  · exact later.blank view isView isEmpty (kept.shown isView isEmpty)
  · exact later.authored view isView isEmpty

theorem trans (kept : before.KeepsPattern between) (later : between.KeepsPattern after) :
    before.KeepsPattern after := by
  have same := kept.view_eq later
  refine ⟨later.pattern.trans kept.pattern, later.present, ?_, ?_, ?_, ?_⟩
  · exact fun view isView shown => same.trans (kept.authored view isView shown)
  · exact fun isMissing => same.trans (kept.missing isMissing)
  · exact fun view isView isEmpty given => same.trans (kept.emptied view isView isEmpty given)
  · exact fun view isView isEmpty isBlank => same.trans (kept.blank view isView isEmpty isBlank)

end KeepsPattern

end Validation

theorem Gather.keepsPattern_settle_normalize (gather : Gather) :
    gather.validation.KeepsPattern gather.normalize.settle.validation := by
  have untouched : gather.normalize.settle.validation = gather.validation.normalize := by
    obtain ⟨_, _, _, _, _, _, gatherType, _, _⟩ := gather
    cases gatherType <;> rfl
  rw [untouched]
  exact gather.validation.keepsPattern_normalize

namespace Step

/-! ### Patterns at every depth -/

/-- What becomes of all the patterns in a step. Gather steps stay gather steps, each with its pattern
and as many prompts. What other steps become does not matter. -/
inductive KeepsPatterns : Step → Step → Prop where
  | act {header : Header} {action : Action} (after : Step) : KeepsPatterns (.act header action) after
  | gather {header changed : Header} {digits kept : Gather} {prompts others : List Step} :
      digits.validation.KeepsPattern kept.validation → List.Forall₂ KeepsPatterns prompts others →
      KeepsPatterns (.gather header digits prompts) (.gather changed kept others)

theorem KeepsPatterns.trans {before between after : Step} (kept : before.KeepsPatterns between)
    (later : between.KeepsPatterns after) : before.KeepsPatterns after := by
  induction before using Step.induction generalizing between after with
  | act header action => exact .act after
  | gather header digits prompts ih =>
    cases kept with
    | gather kept each =>
      cases later with
      | gather later eachLater =>
        refine .gather (kept.trans later) (List.forall₂_iff_get.mpr
          ⟨each.length_eq.trans eachLater.length_eq, fun position isBefore isAfter => ?_⟩)
        have isBetween := each.length_eq ▸ isBefore
        exact ih _ (List.get_mem ..) (each.get isBefore isBetween) (eachLater.get isBetween isAfter)

theorem keepsPatterns_normalize (step : Step) : step.KeepsPatterns step.normalize := by
  induction step using Step.induction with
  | act header action => exact .act _
  | gather header digits prompts ih =>
    rw [normalize, normalizeAll_eq_map]
    refine .gather digits.validation.keepsPattern_normalize ?_
    exact List.forall₂_map_right_iff.mpr (List.forall₂_same.mpr ih)

/-- What a stored step is loaded as keeps its patterns, if gather steps are known by their word. The
induction is on the depth of the step, since its prompts are loaded one by one. -/
theorem keepsPatterns_of_load {vocabulary : Vocabulary}
    (stands : vocabulary.kindOf? StepKind.gather.word = some .gather) {step after : Step}
    (loaded : load vocabulary step.canonical = .ok after) : step.KeepsPatterns after := by
  induction step using Step.induction generalizing after with
  | act header action => exact .act after
  | gather header digits prompts ih =>
    let own := (header.normalize .gather).entries .gather
      (digits.normalize.prune.entries (canonicalAll prompts))
    have isGather : load vocabulary (.obj own) = .ok after := loaded
    rw [load_entries stands, loadAs_obj] at isGather
    obtain ⟨raw, loadedOwn, isAfter⟩ := bind_eq_ok_iff.mp isGather
    cases isAfter
    obtain ⟨_, _, others, loadedGather, loadedPrompts, rfl⟩ := loadOwn_gather_eq_ok loadedOwn
    cases (loadGather_entries ..).symm.trans loadedGather
    have stored : (Json.obj own).storedSteps = prompts.map canonical := by
      rw [← canonicalAll_eq_map]
      refine Json.storedSteps_eq ?_
      simp [own, Json.get?]
    rw [stored, mapM_eq_ok_iff, List.forall₂_map_left_iff] at loadedPrompts
    have each : List.Forall₂ KeepsPatterns prompts others :=
      ((List.forall₂_and_left _ _).mpr ⟨ih, loadedPrompts⟩).imp fun _ _ both => both.1 both.2
    exact .trans (.gather digits.keepsPattern_settle_normalize each) (keepsPatterns_normalize _)

/-! ### Turns -/

/-- What happens to a step while nobody edits it. -/
inductive Upkeep where
  | normalize
  | reload (vocabulary : Vocabulary)

/-- What becomes of a step. To reload it is to store it and to load what is stored. -/
def Upkeep.run (step : Step) : Upkeep → Except StepError Step
  | .normalize => .ok step.normalize
  | .reload vocabulary => load vocabulary step.canonical

/-- What becomes of a step over some turns. -/
def keepUp (turns : List Upkeep) (step : Step) : Except StepError Step :=
  turns.foldlM Upkeep.run step

/-- Gather steps are known by their word when the step is loaded. -/
def Upkeep.KnowsGather : Upkeep → Prop
  | .normalize => True
  | .reload vocabulary => vocabulary.kindOf? StepKind.gather.word = some .gather

/-- The steps of each kind are known by its word when the step is loaded. -/
def Upkeep.KeepsWords : Upkeep → Prop
  | .normalize => True
  | .reload vocabulary => vocabulary.KeepsWords

theorem keepsPatterns_of_run {turn : Upkeep} (knows : turn.KnowsGather) {step after : Step}
    (run : turn.run step = .ok after) : step.KeepsPatterns after := by
  cases turn with
  | normalize =>
    cases run
    exact step.keepsPatterns_normalize
  | reload vocabulary => exact keepsPatterns_of_load knows run

theorem keepsPatterns_of_keepUp {turns : List Upkeep} (nonempty : turns ≠ [])
    (knows : ∀ turn ∈ turns, turn.KnowsGather) {step after : Step}
    (kept : keepUp turns step = .ok after) : step.KeepsPatterns after := by
  induction turns generalizing step with
  | nil => exact absurd rfl nonempty
  | cons turn rest ih =>
    obtain ⟨knowsTurn, knowsRest⟩ := List.forall_mem_cons.mp knows
    obtain ⟨next, run, keptRest⟩ := bind_eq_ok_iff.mp kept
    have first := keepsPatterns_of_run knowsTurn run
    by_cases last : rest = []
    · subst last
      cases keptRest
      exact first
    · exact first.trans (ih last knowsRest keptRest)

/-- A step with reachable paths is loaded whenever it has been stored, and has reachable paths
again. -/
theorem exists_run {turn : Upkeep} (keeps : turn.KeepsWords) {step : Step}
    (reachable : ∀ path ∈ step.paths, path.Reachable) :
    ∃ after, turn.run step = .ok after ∧ ∀ path ∈ after.paths, path.Reachable := by
  cases turn with
  | normalize => exact ⟨step.normalize, rfl, paths_normalize step ▸ reachable⟩
  | reload vocabulary =>
    have loaded := load_canonical_of_sound keeps step fun path isPath =>
      (reachable path isPath).sound
    exact ⟨step.normalForm, loaded, reachable_of_load loaded⟩

theorem exists_keepUp {turns : List Upkeep} (keeps : ∀ turn ∈ turns, turn.KeepsWords) {step : Step}
    (reachable : ∀ path ∈ step.paths, path.Reachable) : ∃ after, keepUp turns step = .ok after := by
  induction turns generalizing step with
  | nil => exact ⟨step, rfl⟩
  | cons turn rest ih =>
    obtain ⟨keepsTurn, keepsRest⟩ := List.forall_mem_cons.mp keeps
    obtain ⟨next, run, reachableNext⟩ := exists_run keepsTurn reachable
    obtain ⟨after, kept⟩ := ih keepsRest reachableNext
    exact ⟨after, bind_eq_ok_iff.mpr ⟨next, run, kept⟩⟩

/-- **An authored pattern is never lost.** A step is normalized, or stored and loaded, any number of
times, with vocabularies that know gather steps by their word. Then every gather step in it keeps its
pattern, and from the first time on its view of the pattern. If the vocabularies know every kind by
its word, and the paths in the step can be had, the step is loaded each time. -/
theorem authored_pattern_kept (turns : List Upkeep) (step : Step) (nonempty : turns ≠ []) :
    (∀ after, (∀ turn ∈ turns, turn.KnowsGather) → keepUp turns step = .ok after →
        step.KeepsPatterns after) ∧
      ((∀ turn ∈ turns, turn.KeepsWords) → (∀ path ∈ step.paths, path.Reachable) →
        ∃ after, keepUp turns step = .ok after ∧ step.KeepsPatterns after) := by
  refine ⟨fun after knows kept => keepsPatterns_of_keepUp nonempty knows kept,
    fun keeps reachable => ?_⟩
  obtain ⟨after, kept⟩ := exists_keepUp keeps reachable
  refine ⟨after, kept, keepsPatterns_of_keepUp nonempty (fun turn isTurn => ?_) kept⟩
  have keepsTurn := keeps turn isTurn
  cases turn with
  | normalize => exact trivial
  | reload vocabulary => exact keepsTurn .gather

/-- A step that gathers what matches a pattern, and in a prompt, a choice from an authored list. -/
def withView (view : Option PatternView) : Step :=
  .gather (.new .gather "ask") { Gather.new with validation := ⟨.new, "^[0-9]+$", view⟩ }
    [.gather (.new .gather "pick")
      { Gather.new with validation := ⟨.new, "[0-9]", some ⟨"1,2,3", .oneOf⟩⟩ } []]

/-- Reloads with an alias and without, and normalizing between them. -/
def reloads : List Upkeep :=
  [.reload (Vocabulary.standard.addAlias "ask" .gather), .normalize, .reload .standard]

/-- The view that is missing is made from the pattern, and the other one stays as authored. -/
theorem authored_pattern_kept_reloads :
    keepUp reloads (withView none) = .ok (withView (some ⟨"^[0-9]+$", .regex⟩)) ∧
      (withView none).KeepsPatterns (withView (some ⟨"^[0-9]+$", .regex⟩)) := by
  have keeps : ∀ turn ∈ reloads, turn.KeepsWords := by
    refine List.forall_mem_cons.mpr ⟨fun kind => ?_, List.forall_mem_cons.mpr ⟨trivial,
      List.forall_mem_singleton.mpr Vocabulary.keepsWords_standard⟩⟩
    cases kind <;> decide
  have computed : keepUp reloads (withView none) =
      .ok (withView (some ⟨"^[0-9]+$", .regex⟩)) := rfl
  obtain ⟨_, survives⟩ := authored_pattern_kept reloads (withView none) (List.cons_ne_nil _ _)
  obtain ⟨after, kept, keptPatterns⟩ := survives keeps (List.forall_mem_nil _)
  cases computed.symm.trans kept
  exact ⟨computed, keptPatterns⟩

end Step

end IvrFlow
