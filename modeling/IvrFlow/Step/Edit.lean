import IvrFlow.Step.Stored

/-!
Editing steps. A field is assigned the value that would be stored under its key, and nothing is
normalized on the way. Targets, assignments and prompts are added, changed and taken out one by one.
-/

namespace IvrFlow

/-! ### Fields -/

/-- Assigns a field of a record a stored value. Fields go by their own keys alone. -/
def assignIn {α : Type} (fields : List (Field α)) (name : String) (stored : Json) (record : α) :
    Except Fault α :=
  match fields.find? (·.name == name) with
  | some field => field.read stored record
  | none => .error (.missingField name)

/-- Assigns a field of an action. -/
def Action.assign (name : String) (stored : Json) : Action → Except Fault Action
  | .say body => return .say (← assignIn Say.fields name stored body)
  | .play body => return .play (← assignIn Play.fields name stored body)
  | .dial body => return .dial (← assignIn Dial.fields name stored body)
  | .redirect body => return .redirect (← assignIn Redirect.fields name stored body)
  | .hangUp => .error (.missingField name)
  | .reject body => return .reject (← assignIn Reject.fields name stored body)
  | .pause body => return .pause (← assignIn Pause.fields name stored body)
  | .externalService body => return .externalService (← assignIn Service.fields name stored body)

/-- Assigns a field of an announcement: its label, or how it is spoken. -/
def Announcement.assign (name : String) (stored : Json) (announcement : Announcement) :
    Except Fault Announcement :=
  if name = "label" then do
    let label ← Codec.text.read stored
    return { announcement with header := { announcement.header with label := label } }
  else do return { announcement with say := ← assignIn Say.fields name stored announcement.say }

/-- Assigns a field of a validation. The view is a record of its own, even an empty one, unless it
is null. -/
def Validation.assign (name : String) (stored : Json) (validation : Validation) :
    Except Fault Validation :=
  if name = "iface" then do
    return { validation with view := ← PatternView.form.codec.orNull stored }
  else assignIn [Validation.patternField] name stored validation

/-- Assigns a field of a gather step. What lies in its validation goes by a key with two parts. -/
def Gather.assign (name : String) (stored : Json) (gather : Gather) : Except Fault Gather :=
  let inValidation (change : Validation → Except Fault Validation) : Except Fault Gather := do
    return { gather with validation := ← change gather.validation }
  match fields.find? (·.name == name) with
  | some field => field.read stored gather
  | none =>
    match name.splitOn "." with
    | ["validation", part] => inValidation (·.assign part stored)
    | ["messageStep", part] => inValidation fun validation => do
      return { validation with announcement := ← validation.announcement.assign part stored }
    | _ => .error (.missingField name)

namespace Step

/-- Assigns a field of a step: its label, its editor data, or a field of its kind. -/
def assign (name : String) (stored : Json) (step : Step) : Except Fault Step :=
  if name = "label" then do return step.withLabel (← Codec.text.read stored)
  else if name = "iface" then .ok (step.withHeader { step.header with iface := stored })
  else
    match step with
    | .act header action => do return .act header (← action.assign name stored)
    | .gather header digits prompts => do
      return .gather header (← digits.assign name stored) prompts

/-! ### Choices -/

/-- Chooses where a play step has its audio from. -/
def chooseSource (source : AudioSource) : Step → Step
  | .act header (.play body) => .act header (.play { body with source := source })
  | step => step

/-- Chooses what a gather step takes its digits for. -/
def chooseInput (gatherType : GatherType) : Step → Step
  | .gather header digits prompts => .gather header { digits with gatherType := gatherType } prompts
  | step => step

/-! ### Parts -/

/-- Changes the targets of a dial step. -/
def editDial (change : Dial → Dial) : Step → Step
  | .act header (.dial body) => .act header (.dial (change body))
  | step => step

/-- Changes a call of an external service. -/
def editService (change : Service → Service) : Step → Step
  | .act header (.externalService body) => .act header (.externalService (change body))
  | step => step

/-- Changes the prompts of a gather step. -/
def editPrompts (change : List Step → List Step) : Step → Step
  | .gather header digits prompts => .gather header digits (change prompts)
  | step => step

/-- The call of an external service that a step makes. -/
def service? : Step → Option Service
  | .act _ (.externalService body) => some body
  | _ => none

/-- The targets of a dial step. -/
def targets? : Step → Option (List DialTarget)
  | .act _ (.dial body) => some body.targets
  | _ => none

end Step

/-- Adds a target after the others. -/
def Dial.addTarget (target : DialTarget) (dial : Dial) : Dial :=
  { dial with targets := dial.targets ++ [target] }

/-- Takes the target at a position out. -/
def Dial.removeTarget (index : Nat) (dial : Dial) : Dial :=
  { dial with targets := dial.targets.eraseIdx index }

/-- Adds an assignment after the others. -/
def Service.addAssignment (assignment : Assignment) (service : Service) : Service :=
  { service with assignments := service.assignments ++ [assignment] }

end IvrFlow
