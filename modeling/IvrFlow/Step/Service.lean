import IvrFlow.Path.Assignment
import IvrFlow.Step.Speech

/-!
Calls of external services. The step stores parts of the response in variables, and may route on it:
to a fixed step, or to the one that a path finds in the response.
-/

namespace IvrFlow

/-- How the step after a service call is found. -/
inductive NextType where
  | fixed
  | computed
deriving DecidableEq

namespace NextType

/-- The word for a way to find the next step. -/
def word : NextType → String
  | .fixed => "fixed"
  | .computed => "computed"

/-- How it is stored. -/
def codec : Codec NextType := .word [("fixed", .fixed), ("computed", .computed)] word

end NextType

/-- A parameter of the address that is called. -/
structure UrlParameter where
  name : String
  value : String
deriving DecidableEq

namespace UrlParameter

/-- A parameter that has not been entered yet. -/
def blank : UrlParameter := ⟨"", ""⟩

/-- The stored form of a parameter. -/
def form : Record UrlParameter where
  title := "UrlParameter"
  blank := blank
  fields :=
    [.of "name" [] .text (·.name) ({ · with name := · }),
     .of "value" [] .text (·.value) ({ · with value := · })]

end UrlParameter

/-- A call of an external service. -/
structure Service where
  url : String
  urlParameters : List UrlParameter
  assignments : List Assignment
  next : String
  doRouting : Bool
  nextType : NextType
  nextPath : Path
deriving DecidableEq

namespace Service

/-- A new call, which goes nowhere yet. -/
def new : Service := ⟨"", [], [], "", false, .fixed, .empty⟩

/-- The stored form of a call without its assignments and its path. -/
def fields : List (Field Service) :=
  [.of "doRouting" [] .flag (·.doRouting) ({ · with doRouting := · }),
   .of "next" [] .text (·.next) ({ · with next := · }),
   .of "nextType" [] NextType.codec (·.nextType) ({ · with nextType := · }),
   .of "url" [] .text (·.url) ({ · with url := · }),
   .of "urlParameters" ["urlParams"] (.nullAs [] (.list UrlParameter.form.codec)) (·.urlParameters)
     ({ · with urlParameters := · })]

/-- Loads the parts of a stored call that have checks of their own: its assignments, and then the
path to the next step. Assignments are loaded from an array alone. -/
def loadParts (entries : Fields) (service : Service) : Except StepError Service := do
  let service ←
    match entries.lookup "assignments" with
    | some (.arr items) => do
      let assignments ← items.mapM Assignment.load
      pure { service with assignments := assignments }
    | _ => pure service
  match entries.lookup "nextValueExtractor" with
  | some stored => return { service with nextPath := ← Path.load stored }
  | none => return service

/-- The own entries of a call. -/
def entries (service : Service) : Fields :=
  ((writeFields fields service).insert
    "assignments" (.arr (service.assignments.map Assignment.toJson))).insert
    "nextValueExtractor" service.nextPath.toJson

@[simp] theorem lookup_assignments_entries (service : Service) :
    service.entries.lookup "assignments" =
      some (.arr (service.assignments.map Assignment.toJson)) := by
  simp [entries]

@[simp] theorem lookup_nextPath_entries (service : Service) :
    service.entries.lookup "nextValueExtractor" = some service.nextPath.toJson :=
  Fields.lookup_insert_self _ _ _

/-- What a call that routes on the response lacks for it. -/
def routingGap? (service : Service) : Option RoutingGap :=
  if !service.doRouting then none
  else
    match service.nextType with
    | .fixed => if service.next = "" then some .noNext else none
    | .computed => if service.nextPath.isWellFormed then none else some .unfinishedPath

/-- Whether the named step can route on the response. Editing and storing never depend on it. -/
def checkRouting (step : String) (service : Service) : Except StepError Unit :=
  match service.routingGap? with
  | none => .ok ()
  | some gap => .error (.incompleteRouting step gap)

end Service

end IvrFlow
