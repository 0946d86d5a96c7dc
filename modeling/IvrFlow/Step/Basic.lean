import IvrFlow.Step.Audio
import IvrFlow.Step.Dial
import IvrFlow.Step.Gather
import IvrFlow.Step.Handover
import IvrFlow.Step.Service

/-!
Steps of a call flow. A step has a header and either does one thing or gathers digits; a gather step
holds the prompt steps that are played meanwhile, which may be gather steps in their turn.
-/

namespace IvrFlow

/-- What a step does that holds no further steps. -/
inductive Action where
  | say (say : Say)
  | play (play : Play)
  | dial (dial : Dial)
  | redirect (redirect : Redirect)
  | hangUp
  | reject (reject : Reject)
  | pause (pause : Pause)
  | externalService (service : Service)
deriving DecidableEq

/-- The kind of step that an action makes. -/
def Action.kind : Action → StepKind
  | .say _ => .say
  | .play _ => .play
  | .dial _ => .dial
  | .redirect _ => .redirect
  | .hangUp => .hangUp
  | .reject _ => .reject
  | .pause _ => .pause
  | .externalService _ => .externalService

/-- A step of a call flow. -/
inductive Step where
  | act (header : Header) (action : Action)
  | gather (header : Header) (gather : Gather) (prompts : List Step)

namespace Step

/-- What a step does. -/
def kind : Step → StepKind
  | .act _ action => action.kind
  | .gather _ _ _ => .gather

/-- The header of a step. -/
def header : Step → Header
  | .act header _ => header
  | .gather header _ _ => header

/-- The name of a step. -/
def name (step : Step) : String := step.header.name

/-- The label of a step. -/
def label (step : Step) : String := step.header.label

/-- The title of a step. -/
def title (step : Step) : String := step.header.title

/-- The steps that a step holds. -/
def prompts : Step → List Step
  | .act _ _ => []
  | .gather _ _ prompts => prompts

/-- The step with another header. -/
def withHeader (header : Header) : Step → Step
  | .act _ action => .act header action
  | .gather _ digits prompts => .gather header digits prompts

/-- The step with another label. -/
def withLabel (label : String) (step : Step) : Step :=
  step.withHeader { step.header with label := label }

/-- A new step of a kind. -/
def new (kind : StepKind) (name : String) : Step :=
  let header := Header.new kind name
  match kind with
  | .say => .act header (.say .new)
  | .play => .act header (.play .new)
  | .gather => .gather header .new []
  | .dial => .act header (.dial .new)
  | .redirect => .act header (.redirect .new)
  | .hangUp => .act header .hangUp
  | .reject => .act header (.reject .new)
  | .pause => .act header (.pause .new)
  | .externalService => .act header (.externalService .new)

@[simp] theorem header_new (kind : StepKind) (name : String) :
    (new kind name).header = .new kind name := by
  cases kind <;> rfl

/-! ### Equality -/

mutual

/-- Whether two steps are equal. -/
def same : Step → Step → Bool
  | .act h a, .act h' a' => h = h' && a = a'
  | .gather h g ps, .gather h' g' ps' => h = h' && g = g' && sameAll ps ps'
  | _, _ => false

/-- Whether two lists of steps are equal. -/
def sameAll : List Step → List Step → Bool
  | [], [] => true
  | s :: ss, t :: ts => same s t && sameAll ss ts
  | _, _ => false

end

mutual

theorem same_iff : ∀ s t : Step, same s t = true ↔ s = t
  | .act _ _, t => by cases t <;> simp [same]
  | .gather _ _ ps, t => by
    cases t with
    | act => simp [same]
    | gather _ _ ps' => simp [same, sameAll_iff ps ps', and_assoc]

theorem sameAll_iff : ∀ ss ts : List Step, sameAll ss ts = true ↔ ss = ts
  | [], ts => by cases ts <;> simp [sameAll]
  | _ :: _, [] => by simp [sameAll]
  | s :: ss, t :: ts => by simp [sameAll, same_iff s t, sameAll_iff ss ts]

end

instance : DecidableEq Step := fun s t => decidable_of_iff _ (same_iff s t)

end Step

end IvrFlow
