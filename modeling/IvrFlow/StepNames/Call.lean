import IvrFlow.StepNames

/-!
Drawing names in place. A call draws the next name, for itself or for a new step, and may be refused
on the way; what it has changed until then stays changed. A run is one call after another, and goes
on after calls that are refused.
-/

namespace IvrFlow.StepNames

/-- A change of the counter in place, which may be refused. -/
abbrev Change := ExceptT StepError (StateM StepNames)

/-- Moves the counter on, and gives the name with its number. -/
def nextInPlace : Change String := do
  let names ← get
  if names.left = 0 then throw (.namesExhausted names.last)
  set (StepNames.mk (names.last + 1))
  return nameOf (← get).last

/-- Creates a step of the kind that a word stands for, with the next name. -/
def createInPlace (vocabulary : Vocabulary) (word : String) : Change Step := do
  let kind ← vocabulary.kindOf word
  Step.new kind <$> nextInPlace

/-- What a call gives: a name alone, or a new step that has it. -/
inductive Issue where
  | name (drawn : String)
  | step (created : Step)
deriving DecidableEq

/-- The name that is issued. -/
def Issue.named : Issue → String
  | .name drawn => drawn
  | .step created => created.name

/-- A call to the counter. -/
inductive Call where
  | next
  | create (vocabulary : Vocabulary) (word : String)

namespace Call

/-- What a call changes. -/
def change : Call → Change Issue
  | .next => Issue.name <$> nextInPlace
  | .create vocabulary word => Issue.step <$> createInPlace vocabulary word

/-- The answer to a call, and the counter as it is then. -/
def run (call : Call) (names : StepNames) : Except StepError Issue × StepNames :=
  call.change.run.run names

end Call

/-- The counter after a run of calls. -/
def after (calls : List Call) (names : StepNames) : StepNames :=
  calls.foldl (fun names call => (call.run names).2) names

/-- The names that a run of calls issues, in order. -/
def issued (names : StepNames) : List Call → List String
  | [] => []
  | call :: rest =>
    ((call.run names).1.toOption.map Issue.named).toList ++ issued (call.run names).2 rest

end IvrFlow.StepNames
