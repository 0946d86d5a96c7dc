import IvrFlow.Step.Normal

/-!
Stored forms of steps. The canonical form is what a flow is saved as: the normal form without the
branches that are not chosen, and with the kind. The held form shows a step just as it is held, but
for the steps inside it, which are canonical in both.
-/

namespace IvrFlow

/-- The own entries of an action. -/
def Action.entries : Action → Fields
  | .say body => writeFields Say.fields body
  | .play body => writeFields Play.fields body
  | .dial body => body.entries
  | .redirect body => writeFields Redirect.fields body
  | .hangUp => []
  | .reject body => writeFields Reject.fields body
  | .pause body => writeFields Pause.fields body
  | .externalService body => body.entries

/-- The own entries of a gather step, with its prompts in their stored forms. -/
def Gather.entries (gather : Gather) (prompts : List Json) : Fields :=
  (writeFields Gather.fields gather).insert "steps" (.arr prompts)

@[simp] theorem Gather.lookup_steps_entries (gather : Gather) (prompts : List Json) :
    (gather.entries prompts).lookup "steps" = some (.arr prompts) :=
  Fields.lookup_insert_self _ _ _

namespace Step

/-- Adds the kind to the entries of a step. -/
def tagged (kind : StepKind) (entries : Fields) : Json :=
  .obj (entries.insert "kind" (.str kind.word))

mutual

/-- The canonical form of a step. -/
def canonical : Step → Json
  | .act header action =>
    tagged action.kind ((header.normalize action.kind).addTo action.normalize.prune.entries)
  | .gather header digits prompts =>
    tagged .gather
      ((header.normalize .gather).addTo (digits.normalize.prune.entries (canonicalAll prompts)))

/-- The canonical forms of steps. -/
def canonicalAll : List Step → List Json
  | [] => []
  | step :: rest => canonical step :: canonicalAll rest

end

@[simp] theorem canonicalAll_eq_map : ∀ steps : List Step, canonicalAll steps = steps.map canonical
  | [] => rfl
  | step :: rest => by rw [canonicalAll, canonicalAll_eq_map rest, List.map_cons]

/-- The held form of a step. -/
def held : Step → Json
  | .act header action => .obj (header.addTo action.entries)
  | .gather header digits prompts => .obj (header.addTo (digits.entries (prompts.map canonical)))

end Step

end IvrFlow
