import IvrFlow.Step.Basic
import IvrFlow.Vocabulary

/-!
Names for new steps: `step1`, `step2` and so on. The counter only ever goes up, and stops at the
greatest number it can hold.
-/

namespace IvrFlow

/-- The number of the name issued last; zero before the first. -/
structure StepNames where
  last : UInt64
deriving DecidableEq

namespace StepNames

/-- Nothing issued yet. -/
def start : StepNames := ⟨0⟩

/-- The name with a number. -/
def nameOf (number : UInt64) : String := "step" ++ toString number.toNat

/-- How many names are left. -/
def left (names : StepNames) : Nat := UInt64.size - 1 - names.last.toNat

/-- Issues the next name. -/
def next (names : StepNames) : Except StepError (String × StepNames) :=
  if names.left = 0 then .error (.namesExhausted names.last)
  else .ok (nameOf (names.last + 1), ⟨names.last + 1⟩)

/-- Sets the counter, to zero unless a number is given. -/
def reset (number : Option UInt64) : StepNames := ⟨number.getD 0⟩

/-- Creates a step of the kind that a word stands for. A word that stands for none draws no name. -/
def create (vocabulary : Vocabulary) (word : String) (names : StepNames) :
    Except StepError (Step × StepNames) := do
  let kind ← vocabulary.kindOf word
  let (name, names) ← names.next
  return (Step.new kind name, names)

end StepNames

end IvrFlow
