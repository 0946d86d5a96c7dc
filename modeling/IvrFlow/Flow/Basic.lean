import IvrFlow.Step.Stored
import IvrFlow.StepNames

/-!
Call flows: named nodes, each an ordered list of steps, and the counter that names new steps.
-/

namespace IvrFlow

/-- What a flow says about its project. -/
structure FlowHeader where
  projectKind : String
  version : String
  startNodeName : Option String
deriving DecidableEq

namespace FlowHeader

/-- The header of a new flow. -/
def new : FlowHeader := ⟨"voice", "1.0", none⟩

/-- The kind of the project. -/
def projectKindField : Field FlowHeader :=
  .of "projectKind" [] .text (·.projectKind) ({ · with projectKind := · })

/-- The version of the project. -/
def versionField : Field FlowHeader := .of "version" [] .text (·.version) ({ · with version := · })

/-- The node that a call starts at. -/
def startNodeNameField : Field FlowHeader :=
  .orNull "startNodeName" [] .text (·.startNodeName) ({ · with startNodeName := · })

/-- The stored form of a header. -/
def form : Record FlowHeader where
  title := "FlowHeader"
  blank := new
  fields := [projectKindField, startNodeNameField, versionField]
  positions := [projectKindField, versionField, startNodeNameField]

end FlowHeader

/-- A module of a flow. -/
structure Node where
  name : String
  label : String
  kind : String
  iface : Json
  steps : List Step
deriving DecidableEq

namespace Node

/-- A new node, which has no steps yet. -/
def new (name label : String) : Node := ⟨name, label, "voice", .obj [], []⟩

/-- The name of the node. -/
def nameField : Field Node := .of "name" [] .text (·.name) ({ · with name := · })

/-- The label of the node. -/
def labelField : Field Node := .of "label" [] .text (·.label) ({ · with label := · })

/-- The kind of the node. -/
def kindField : Field Node := .of "kind" [] .text (·.kind) ({ · with kind := · })

/-- What the editor keeps with the node, whatever it is. -/
def ifaceField : Field Node := .of "iface" [] .any (·.iface) ({ · with iface := · })

/-- The stored form of a node without its steps. -/
def form : Record Node where
  title := "FlowNode"
  blank := new "" ""
  fields := [ifaceField, kindField, labelField, nameField]
  positions := [nameField, labelField, kindField, ifaceField]

/-- The canonical form of a node. -/
def canonical (node : Node) : Json :=
  .obj ((writeFields form.fields node).insert "steps" (.arr (node.steps.map Step.canonical)))

/-- Adds a step after the others. -/
def addStep (step : Step) (node : Node) : Node := { node with steps := node.steps ++ [step] }

end Node

/-- A whole call flow. -/
structure Flow where
  header : FlowHeader
  nodes : List Node
  names : StepNames
deriving DecidableEq

namespace Flow

/-- A new flow, which has no nodes yet. -/
def new (header : FlowHeader) : Flow := ⟨header, [], .start⟩

/-- The steps of the nodes, in order. -/
def topSteps (flow : Flow) : List Step := flow.nodes.flatMap (·.steps)

/-- The steps of the nodes, each followed by its own prompts. -/
def steps (flow : Flow) : List Step := flow.topSteps.flatMap fun step => step :: step.prompts

/-- The names of the steps that have one. -/
def stepNames (flow : Flow) : List String := (flow.steps.map Step.name).filter (· ≠ "")

/-- The first step with a name, prompts included. -/
def step? (name : String) (flow : Flow) : Option Step := flow.steps.find? (·.name == name)

/-- The first step of a node with a name. -/
def topStep? (name : String) (flow : Flow) : Option Step := flow.topSteps.find? (·.name == name)

/-- The canonical form of a flow. -/
def canonical (flow : Flow) : Json :=
  .obj [("header", FlowHeader.form.codec.write flow.header),
    ("lastStepId", Codec.natural.write flow.names.last),
    ("nodes", .arr (flow.nodes.map Node.canonical))]

end Flow

end IvrFlow
