import IvrFlow.Step.Basic

/-!
Normal steps. Normalizing gives every step its label and its editor data, fills in both branches of
each choice, and reconciles the pattern of each gather step, at every depth. Pruning then leaves the
branch that is chosen.
-/

namespace IvrFlow

/-- An action in its normal form. -/
def Action.normalize : Action → Action
  | .say body => .say body.normalize
  | .play body => .play body.normalize
  | .redirect body => .redirect body.normalize
  | action => action

/-- An action without the branch that is not chosen. -/
def Action.prune : Action → Action
  | .play body => .play body.prune
  | action => action

@[simp] theorem Action.kind_normalize (action : Action) : action.normalize.kind = action.kind := by
  cases action <;> rfl

namespace Step

mutual

/-- A step in its normal form. -/
def normalize : Step → Step
  | .act header action => .act (header.normalize action.kind) action.normalize
  | .gather header digits prompts =>
    .gather (header.normalize .gather) digits.normalize (normalizeAll prompts)

/-- Steps in their normal forms. -/
def normalizeAll : List Step → List Step
  | [] => []
  | step :: rest => normalize step :: normalizeAll rest

end

@[simp] theorem normalizeAll_eq_map : ∀ steps : List Step, normalizeAll steps = steps.map normalize
  | [] => rfl
  | step :: rest => by rw [normalizeAll, normalizeAll_eq_map rest, List.map_cons]

@[simp] theorem kind_normalize (step : Step) : step.normalize.kind = step.kind := by
  cases step with
  | act header action => exact action.kind_normalize
  | gather header digits prompts => rfl

@[simp] theorem prompts_normalize (step : Step) :
    step.normalize.prompts = step.prompts.map normalize := by
  cases step with
  | act header action => rfl
  | gather header digits prompts => exact normalizeAll_eq_map prompts

end Step

end IvrFlow
