import IvrFlow.Step.Normal
import IvrFlow.Vocabulary

/-!
Loading steps. The kind of a stored step says which fields it has. The own fields are read before
those of the header, and what has checks of its own is loaded after both: targets, assignments and
paths, the announcement of a gather step and then its prompts. A loaded step is normal.
-/

namespace IvrFlow.Step

/-- Loads a step that its fields determine. -/
def loadPlain {α : Type} (kind : StepKind) (fields : List (Field α)) (blank : α)
    (action : α → Action) (entries : Fields) : Except StepError Step := do
  let (header, body) ← readStep kind fields blank entries
  return .act header (action body)

/-- Loads a dial step and its targets. -/
def loadDial (policy : TargetPolicy) (entries : Fields) : Except StepError Step := do
  let (header, dial) ← readStep .dial Dial.fields .new entries
  let targets ← DialTarget.loadAll policy header.name (Dial.storedTargets entries)
  return .act header (.dial { dial with targets := targets })

/-- Loads a call of an external service. -/
def loadService (entries : Fields) : Except StepError Step := do
  let (header, service) ← readStep .externalService Service.fields .new entries
  return .act header (.externalService (← service.loadParts entries))

/-- Loads what a gather step has besides its prompts. -/
def loadGather (entries : Fields) : Except StepError (Header × Gather) := do
  let (header, digits) ← readStep .gather Gather.fields .new entries
  return (header, ← digits.loadAnnouncement entries)

mutual

/-- Loads a stored step as one of a kind, whatever kind it names itself. -/
def loadAs (vocabulary : Vocabulary) (kind : StepKind) : Json → Except StepError Step
  | .obj entries => do
    let step ←
      match kind with
      | .say => loadPlain .say Say.fields .new .say entries
      | .play => loadPlain .play Play.fields .new .play entries
      | .dial => loadDial vocabulary.policy entries
      | .redirect => loadPlain .redirect Redirect.fields .new .redirect entries
      | .hangUp => loadPlain .hangUp [] () (fun _ => .hangUp) entries
      | .reject => loadPlain .reject Reject.fields .new .reject entries
      | .pause => loadPlain .pause Pause.fields .new .pause entries
      | .externalService => loadService entries
      | .gather => do
        let (header, digits) ← loadGather entries
        pure (.gather header digits (← loadPrompts vocabulary entries))
    return step.normalize
  | _ => .error (.malformed (.step kind) .notObject)

/-- Loads the prompts of a gather step from the array under `steps`. -/
def loadPrompts (vocabulary : Vocabulary) : List (String × Json) → Except StepError (List Step)
  | [] => .ok []
  | (key, stored) :: rest =>
    if key = "steps" then
      match stored with
      | .arr items => loadAll vocabulary items
      | _ => .ok []
    else loadPrompts vocabulary rest

/-- Loads stored steps in order; the first that fails decides. -/
def loadAll (vocabulary : Vocabulary) : List Json → Except StepError (List Step)
  | [] => .ok []
  | stored :: rest => do
    let kind ← vocabulary.storedKind stored
    let step ← loadAs vocabulary kind stored
    return step :: (← loadAll vocabulary rest)

end

/-- Loads a stored step. -/
def load (vocabulary : Vocabulary) (stored : Json) : Except StepError Step := do
  loadAs vocabulary (← vocabulary.storedKind stored) stored

/-- Loads the step that a document holds. -/
def parse (vocabulary : Vocabulary) (text : String) : Except StepError Step :=
  match Json.parse text with
  | .ok stored => load vocabulary stored
  | .error error => .error (.notJson error)

theorem loadAll_eq_mapM (vocabulary : Vocabulary) :
    ∀ stored : List Json, loadAll vocabulary stored = stored.mapM (load vocabulary)
  | [] => rfl
  | stored :: rest => by
    rw [loadAll, List.mapM_cons, loadAll_eq_mapM vocabulary rest]
    simp [load]

end IvrFlow.Step
