import IvrFlow.Path.Load

/-!
Assignments bind the value at the end of a path to a variable of the flow.
-/

namespace IvrFlow

/-- Where a variable lives. -/
inductive Scope where
  | module
  | global
deriving DecidableEq

namespace Scope

/-- The word for a scope. -/
def word : Scope → String
  | .module => "module"
  | .global => "global"

/-- Every word that stands for a scope. -/
def words : List (String × Scope) :=
  [("module", .module), ("application", .global), ("global", .global)]

/-- How a scope is stored. -/
def codec : Codec Scope := .word words word

end Scope

/-- A variable, where it lives, and the path to its value. -/
structure Assignment where
  destination : String
  scope : Scope
  path : Path
deriving DecidableEq

namespace Assignment

/-- An assignment that nothing has been entered for. -/
def blank : Assignment := ⟨"", .module, .empty⟩

/-- The stored form of an assignment without its path. -/
def form : Record Assignment where
  title := "Assignment"
  blank := blank
  fields :=
    [.of "destinationVariable" ["destVariable"] .text (·.destination)
       ({ · with destination := · }),
     .of "scope" [] Scope.codec (·.scope) ({ · with scope := · })]

/-- Loads a stored assignment, and then the path that an object may hold. -/
def load (stored : Json) : Except StepError Assignment := do
  let assignment ← StoredPart.assignment.locate (form.codec.read stored)
  match stored.get? "valueExtractor" with
  | none => return assignment
  | some path => return { assignment with path := ← Path.load path }

/-- The stored assignment. -/
def toJson (assignment : Assignment) : Json :=
  .obj ((writeFields form.fields assignment).insert "valueExtractor" assignment.path.toJson)

end Assignment

end IvrFlow
