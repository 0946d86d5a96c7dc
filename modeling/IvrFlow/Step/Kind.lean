/-!
The kinds of steps. A kind has the word that stored steps carry as their `kind`, the label of a new
step, and the title that every step of the kind has.
-/

namespace IvrFlow

/-- What a step does. -/
inductive StepKind where
  | say
  | play
  | gather
  | dial
  | redirect
  | hangUp
  | reject
  | pause
  | externalService
deriving DecidableEq

namespace StepKind

/-- Every kind. -/
def all : List StepKind :=
  [.say, .play, .gather, .dial, .redirect, .hangUp, .reject, .pause, .externalService]

/-- The word for a kind in stored steps. -/
def word : StepKind → String
  | .say => "say"
  | .play => "play"
  | .gather => "gather"
  | .dial => "dial"
  | .redirect => "redirect"
  | .hangUp => "hungup"
  | .reject => "reject"
  | .pause => "pause"
  | .externalService => "externalService"

/-- The label of a step that has been given none. -/
def defaultLabel : StepKind → String
  | .hangUp => "hang up"
  | kind => kind.word

/-- The title of every step of a kind. -/
def title : StepKind → String
  | .gather => "collect"
  | .hangUp => "hang up"
  | .externalService => "external service"
  | kind => kind.word

/-- The kind with a word. -/
def ofWord? (word : String) : Option StepKind := all.find? (·.word == word)

/-- Each kind is found by its own word. -/
@[simp] theorem ofWord?_word (kind : StepKind) : ofWord? kind.word = some kind := by
  cases kind <;> decide

/-- A step without a label of its own always has one to fall back on. -/
theorem defaultLabel_ne_empty (kind : StepKind) : kind.defaultLabel ≠ "" := by
  cases kind <;> decide

end StepKind

end IvrFlow
