import IvrFlow.Flow.Basic
import IvrFlow.Step.Load

/-!
Loading flows. Header, counter and list of nodes are read first, then each node with its steps, and
last it is checked that no two steps share a name.
-/

namespace IvrFlow

/-- Why a flow cannot be loaded or changed. -/
inductive FlowError where
  | notJson (error : Json.SyntaxError)
  | malformed (fault : Fault)
  | duplicateStepName (name : String)
  | unknownNode (name : String)
  | step (error : StepError)
deriving DecidableEq

/-- The wording of a flow error. -/
def FlowError.message : FlowError → String
  | .notJson error => "Failed to parse flow JSON: " ++ error.message
  | .malformed fault => "Failed to parse flow JSON: " ++ fault.message
  | .duplicateStepName name => "Step name '" ++ name ++ "' is used more than once in the flow"
  | .unknownNode name => "Flow has no node named '" ++ name ++ "'"
  | .step error => error.message

/-- A flow as it is stored: its nodes are still to be loaded. -/
structure StoredFlow where
  header : FlowHeader
  lastStepId : UInt64
  nodes : List Json

namespace StoredFlow

/-- The stored form of a flow. -/
def form : Record StoredFlow where
  title := "StoredFlow"
  blank := ⟨.new, 0, []⟩
  fields :=
    [.of "header" [] FlowHeader.form.codec (·.header) ({ · with header := · }),
     .of "lastStepId" [] .natural (·.lastStepId) ({ · with lastStepId := · }),
     .of "nodes" [] (.list .any) (·.nodes) ({ · with nodes := · })]

end StoredFlow

/-- The result of reading part of a flow. -/
def FlowError.ofFault {α : Type} : Except Fault α → Except FlowError α
  | .ok value => .ok value
  | .error fault => .error (.malformed fault)

/-- The result of loading or naming a step of a flow. -/
def FlowError.ofStep {α : Type} : Except StepError α → Except FlowError α
  | .ok value => .ok value
  | .error error => .error (.step error)

/-- Loads a stored node, and its steps from the array that an object has under `steps`. -/
def Node.load (vocabulary : Vocabulary) (stored : Json) : Except FlowError Node := do
  let node ← FlowError.ofFault (Node.form.codec.read stored)
  match (stored.get? "steps").bind Json.items? with
  | some items => return { node with steps := ← FlowError.ofStep (Step.loadAll vocabulary items) }
  | none => return node

/-- The first name that has occurred before. -/
def firstRepeated (seen : List String) : List String → Option String
  | [] => none
  | name :: rest => if seen.contains name then some name else firstRepeated (name :: seen) rest

namespace Flow

/-- Loads a stored flow. -/
def load (vocabulary : Vocabulary) (stored : Json) : Except FlowError Flow := do
  let raw ← FlowError.ofFault (StoredFlow.form.codec.read stored)
  let nodes ← raw.nodes.mapM (Node.load vocabulary)
  let flow : Flow := ⟨raw.header, nodes, ⟨raw.lastStepId⟩⟩
  match firstRepeated [] flow.stepNames with
  | some name => .error (.duplicateStepName name)
  | none => .ok flow

/-- Loads the flow that a document holds. -/
def parse (vocabulary : Vocabulary) (text : String) : Except FlowError Flow :=
  match Json.parse text with
  | .ok stored => load vocabulary stored
  | .error error => .error (.notJson error)

end Flow

end IvrFlow
