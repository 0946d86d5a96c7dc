import IvrFlow.Flow.Basic
import IvrFlow.Step.Edit

/-!
The report on a flow: its nodes with their steps, and the steps of nodes that are set to route on a
response but cannot.
-/

namespace IvrFlow.Report

/-- A text filled up with spaces to a number of characters. -/
def padded (width : Nat) (text : String) : String :=
  text ++ String.ofList (List.replicate (width - text.length) ' ')

/-- The line of an assignment. -/
def assignmentLine (assignment : Assignment) : String :=
  padded 13 "" ++ assignment.destination ++ " <- " ++ assignment.path.expression

/-- The lines of a step: its name, kind and label, and then its assignments. -/
def stepLines (step : Step) : List String :=
  ("  " ++ padded 10 step.name ++ " " ++ step.kind.word ++ " " ++ step.label) ::
    ((step.service?.map Service.assignments).getD []).map assignmentLine

/-- The lines of a node: an empty one, its name and label, and then its steps. -/
def nodeLines (node : Node) : List String :=
  "" :: ("[" ++ node.name ++ "] " ++ node.label) :: node.steps.flatMap stepLines

/-- What keeps a step from routing on a response that it should route on. -/
def warning? (step : Step) : Option String := do
  match (← step.service?).checkRouting step.name with
  | .ok () => none
  | .error error => some error.message

/-- The routing warnings on the steps of nodes. -/
def warnings (flow : Flow) : List String := flow.topSteps.filterMap warning?

/-- The lines of the report on a flow that was loaded from a path in some time. -/
def lines (path elapsed : String) (flow : Flow) : List String :=
  ["Flow '" ++ path ++ "' loaded in " ++ elapsed] ++
  (flow.header.startNodeName.map ("Start node: " ++ ·)).toList ++
  ["Last step id: " ++ toString flow.names.last.toNat] ++
  flow.nodes.flatMap nodeLines ++
  ["", "--- Summary ---",
   "Nodes: " ++ toString flow.nodes.length,
   "Steps: " ++ toString flow.steps.length,
   "Routing warnings: " ++ toString (warnings flow).length] ++
  (warnings flow).map ("  -> " ++ ·)

/-- The report on a flow. -/
def text (path elapsed : String) (flow : Flow) : String :=
  String.join ((lines path elapsed flow).map (· ++ "\n"))

end IvrFlow.Report
