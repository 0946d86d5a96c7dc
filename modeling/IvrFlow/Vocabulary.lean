import IvrFlow.Step.Dial
import IvrFlow.Step.Failure

/-!
Vocabularies: the words that stored steps may use for their kinds, and the policy for stored dial
targets of an unknown type. Every kind has its own word; aliases add words, and may also redirect
one that was there.
-/

namespace IvrFlow

/-- The words for kinds, and the policy for unknown targets. Of the aliases with one word the first
counts, and it counts before the own word of a kind. -/
structure Vocabulary where
  aliases : List (String × StepKind)
  policy : TargetPolicy
deriving DecidableEq

namespace Vocabulary

/-- The words of the kinds themselves; targets of an unknown type are left out. -/
def standard : Vocabulary := ⟨[], .drop⟩

/-- Adds a word for a kind. -/
def addAlias (word : String) (kind : StepKind) (vocabulary : Vocabulary) : Vocabulary :=
  { vocabulary with aliases := (word, kind) :: vocabulary.aliases }

/-- The same words with another policy. -/
def withPolicy (policy : TargetPolicy) (vocabulary : Vocabulary) : Vocabulary :=
  { vocabulary with policy := policy }

/-- The kind that a word stands for. -/
def kindOf? (vocabulary : Vocabulary) (word : String) : Option StepKind :=
  (vocabulary.aliases.lookup word).or (StepKind.ofWord? word)

/-- Whether a word stands for a kind. -/
def knows (vocabulary : Vocabulary) (word : String) : Bool := (vocabulary.kindOf? word).isSome

/-- The kind that a word stands for, or the error that it stands for none. -/
def kindOf (vocabulary : Vocabulary) (word : String) : Except StepError StepKind :=
  match vocabulary.kindOf? word with
  | some kind => .ok kind
  | none => .error (.unknownKind word)

/-- The kind of a stored step, by the text under `kind`. -/
def storedKind (vocabulary : Vocabulary) (stored : Json) : Except StepError StepKind :=
  match (stored.get? "kind").bind Json.text? with
  | some word => vocabulary.kindOf word
  | none => .error .missingKind

end Vocabulary

end IvrFlow
