import IvrFlow.Json.Parser
import IvrFlow.Path.Hop
import IvrFlow.Step.Kind

/-!
Why a step cannot be loaded, created or routed, each cause with its wording.
-/

namespace IvrFlow

/-- The stored part in which a fault was found. -/
inductive StoredPart where
  | step (kind : StepKind)
  | target
  | assignment
  | path
deriving DecidableEq

/-- The name of a stored part. -/
def StoredPart.name : StoredPart → String
  | .step kind => kind.word
  | .target => "dial target"
  | .assignment => "assignment"
  | .path => "valueExtractor"

/-- What an external service lacks for routing. -/
inductive RoutingGap where
  | noNext
  | unfinishedPath
deriving DecidableEq

/-- The wording of a routing gap. -/
def RoutingGap.message : RoutingGap → String
  | .noNext => "fixed routing has no next step"
  | .unfinishedPath => "computed routing needs a non-empty path ending in a value"

/-- Why a step cannot be had. -/
inductive StepError where
  | missingKind
  | unknownKind (word : String)
  | unknownDialType (step word : String)
  | malformed (part : StoredPart) (fault : Fault)
  | notJson (error : Json.SyntaxError)
  | badPath (error : PathError)
  | namesExhausted (last : UInt64)
  | incompleteRouting (step : String) (gap : RoutingGap)
deriving DecidableEq

/-- The wording of a step error. -/
def StepError.message : StepError → String
  | .missingKind => "Stored step has no 'kind' discriminator"
  | .unknownKind word => "No step variant is registered for kind '" ++ word ++ "'"
  | .unknownDialType step word =>
    "Dial step '" ++ step ++ "' has a target with an unrecognized dialType: '" ++ word ++ "'"
  | .malformed part fault => "Stored '" ++ part.name ++ "' data is malformed: " ++ fault.message
  | .notJson error => "Stored 'step' data is malformed: " ++ error.message
  | .badPath error => "Malformed value-extraction path: " ++ error.message
  | .namesExhausted last => "No step names left after 'step" ++ toString last.toNat ++ "'"
  | .incompleteRouting step gap =>
    "Step '" ++ step ++ "' cannot route on the service response: " ++ gap.message

/-- The result of reading a part, with its fault located in that part. -/
def StoredPart.locate {α : Type} (part : StoredPart) : Except Fault α → Except StepError α
  | .ok value => .ok value
  | .error fault => .error (.malformed part fault)

end IvrFlow
