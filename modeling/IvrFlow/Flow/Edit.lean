import IvrFlow.Flow.Load

/-!
Editing flows. A new step gets the first of the counter's next names that no step has. What fails
leaves header, nodes and steps as they are, but names that were passed over stay used.
-/

namespace IvrFlow

namespace StepNames

/-- Draws names until one is not taken, at most `draws` of them. -/
def drawFree (taken : List String) : Nat → StepNames → Except StepError String × StepNames
  | 0, names => (.error (.namesExhausted names.last), names)
  | draws + 1, names =>
    match names.next with
    | .error error => (.error error, names)
    | .ok (name, names) =>
      if taken.contains name then drawFree taken draws names else (.ok name, names)

end StepNames

namespace Flow

/-- Adds a node after the others. -/
def addNode (node : Node) (flow : Flow) : Flow := { flow with nodes := flow.nodes ++ [node] }

/-- Adds a new step, of the kind that a word stands for, at the end of the first node with a
name. -/
def addStep (vocabulary : Vocabulary) (node word : String) (flow : Flow) :
    Except FlowError Step × Flow :=
  match flow.nodes.findIdx? (·.name == node) with
  | none => (.error (.unknownNode node), flow)
  | some index =>
    match vocabulary.kindOf word with
    | .error error => (.error (.step error), flow)
    | .ok kind =>
      match StepNames.drawFree (flow.steps.map Step.name) flow.names.left flow.names with
      | (.error error, names) => (.error (.step error), { flow with names := names })
      | (.ok name, names) =>
        let step := Step.new kind name
        let nodes := flow.nodes.modify index (Node.addStep step)
        (.ok step, { flow with nodes := nodes, names := names })

/-- The first step with a name among the steps of nodes, and the nodes without it. -/
def takeStep? (name : String) : List Node → Option (Step × List Node)
  | [] => none
  | node :: rest =>
    match node.steps.find? (·.name == name) with
    | some step => some (step, { node with steps := node.steps.eraseP (·.name == name) } :: rest)
    | none => (takeStep? name rest).map fun taken => (taken.1, node :: taken.2)

/-- Takes the first step of a node with a name out of the flow. Prompts are not looked at. -/
def removeStep (name : String) (flow : Flow) : Option Step × Flow :=
  match takeStep? name flow.nodes with
  | some (step, nodes) => (some step, { flow with nodes := nodes })
  | none => (none, flow)

/-- Changes the first step with a name. -/
def updateFirst (name : String) (change : Step → Step) : List Step → List Step
  | [] => []
  | step :: rest =>
    if step.name == name then change step :: rest else step :: updateFirst name change rest

/-- Changes the first step with a name among the steps of nodes. -/
def updateNodes (name : String) (change : Step → Step) : List Node → List Node
  | [] => []
  | node :: rest =>
    if node.steps.any (·.name == name) then
      { node with steps := updateFirst name change node.steps } :: rest
    else node :: updateNodes name change rest

/-- Changes the first step of a node with a name. Prompts are not looked at. -/
def updateStep (name : String) (change : Step → Step) (flow : Flow) : Flow :=
  { flow with nodes := updateNodes name change flow.nodes }

end Flow

end IvrFlow
