import IvrFlow.Step.Failure
import IvrFlow.Step.Header

/-!
Speech: the phrase that a say step announces, and announcements, which are say steps that another
step holds.
-/

namespace IvrFlow

/-- Reads the entries of a stored step: first its own fields, then those of its header. -/
def readStep {α : Type} (kind : StepKind) (own : List (Field α)) (blank : α) (entries : Fields) :
    Except StepError (Header × α) :=
  (StoredPart.step kind).locate do
    let body ← readFields own [] blank entries
    let header ← readFields Header.fields [] Header.blank entries
    return (header, body)

/-- An optional text of which the empty form stands for none. -/
def unlessEmpty (text : Option String) : Option String := text.filter (· ≠ "")

/-- A phrase, how it is spoken, and how often. -/
structure Say where
  phrase : String
  voice : Option String
  language : Option String
  repeats : Option UInt32
deriving DecidableEq

namespace Say

/-- The speech of a new say step. -/
def new : Say := ⟨"", none, none, none⟩

/-- The stored form of speech. -/
def fields : List (Field Say) :=
  [.orNull "language" [] .text (·.language) ({ · with language := · }),
   .counter "loop" (·.repeats) ({ · with repeats := · }),
   .of "phrase" [] .text (·.phrase) ({ · with phrase := · }),
   .orNull "voice" [] .text (·.voice) ({ · with voice := · })]

/-- Speech in which an empty voice or language, as a picker that is cleared leaves it, stands for
none. -/
def normalize (say : Say) : Say :=
  { say with voice := unlessEmpty say.voice, language := unlessEmpty say.language }

end Say

/-- A say step that another step holds. -/
structure Announcement where
  header : Header
  say : Say
deriving DecidableEq

namespace Announcement

/-- The announcement that has not been written yet. -/
def new : Announcement := ⟨.new .say "", .new⟩

/-- The announcement with a normal header and normal speech. -/
def normalize (announcement : Announcement) : Announcement :=
  ⟨announcement.header.normalize .say, announcement.say.normalize⟩

/-- Loads a stored announcement. Its kind is not looked at. -/
def load : Json → Except StepError Announcement
  | .obj entries => do
    let (header, say) ← readStep .say Say.fields .new entries
    return normalize ⟨header, say⟩
  | _ => .error (.malformed (.step .say) .notObject)

/-- The canonical stored form of an announcement. -/
def canonical (announcement : Announcement) : Json :=
  let ⟨header, say⟩ := announcement.normalize
  .obj ((header.addTo (writeFields Say.fields say)).insert "kind" (.str StepKind.say.word))

end Announcement

end IvrFlow
