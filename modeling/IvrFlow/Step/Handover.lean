import IvrFlow.Step.Speech

/-!
Steps that hand the call over, refuse it or wait.
-/

namespace IvrFlow

/-- Hands the call over to another document. -/
structure Redirect where
  url : Option String
  method : Option String
deriving DecidableEq

namespace Redirect

/-- A new redirection. -/
def new : Redirect := ⟨none, none⟩

/-- The stored form of a redirection. -/
def fields : List (Field Redirect) :=
  [.orNull "method" [] .text (·.method) ({ · with method := · }),
   .orNull "url" [] .text (·.url) ({ · with url := · })]

/-- A redirection in which an empty method stands for none. -/
def normalize (redirect : Redirect) : Redirect :=
  { redirect with method := unlessEmpty redirect.method }

end Redirect

/-- Refuses the call, and may say why. -/
structure Reject where
  reason : Option String
deriving DecidableEq

namespace Reject

/-- A new refusal. -/
def new : Reject := ⟨none⟩

/-- The stored form of a refusal. -/
def fields : List (Field Reject) :=
  [.orNull "reason" [] .text (·.reason) ({ · with reason := · })]

end Reject

/-- Waits silently for a number of seconds. -/
structure Pause where
  length : Option UInt32
deriving DecidableEq

namespace Pause

/-- A new pause. -/
def new : Pause := ⟨none⟩

/-- The stored form of a pause. -/
def fields : List (Field Pause) := [.counter "length" (·.length) ({ · with length := · })]

end Pause

end IvrFlow
