import IvrFlow.Path.Basic
import IvrFlow.Step.Failure

/-!
Loading value paths. A stored path gets the same checks, hop by hop, as one that is edited.
-/

namespace IvrFlow.Path

/-- The path that stored hops build, as part of a step. -/
def replayed (hops : List Hop) : Except StepError Path :=
  match ofHops hops with
  | .ok path => .ok path
  | .error error => .error (.badPath error)

/-- Loads a stored path; null stands for the empty one. -/
def load : Json → Except StepError Path
  | .null => .ok empty
  | stored => do replayed (← StoredPart.path.locate (form.codec.read stored))

end IvrFlow.Path
