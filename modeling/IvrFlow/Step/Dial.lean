import IvrFlow.Step.Speech

/-!
Dialling: the targets that a dial step rings. A stored target says of which type it is; what happens
to one of an unknown type is for the policy of the one who loads it.
-/

namespace IvrFlow

/-! ### Types of targets -/

/-- What a dial target is. -/
inductive DialType where
  | number
  | client
  | conference
  | sipUri
deriving DecidableEq

namespace DialType

/-- Every type of target. -/
def all : List DialType := [.number, .client, .conference, .sipUri]

/-- The word for a type of target. -/
def word : DialType → String
  | .number => "number"
  | .client => "client"
  | .conference => "conference"
  | .sipUri => "sipuri"

/-- The type of target with a word. -/
def ofWord? (word : String) : Option DialType := all.find? (·.word == word)

/-- Each type is found by its own word. -/
@[simp] theorem ofWord?_word (dialType : DialType) : ofWord? dialType.word = some dialType := by
  cases dialType <;> decide

end DialType

/-! ### Targets -/

/-- A phone number, and the digits sent once it answers. -/
structure NumberTarget where
  destination : String
  sendDigits : Option String
  beforeConnectModule : Option String
deriving DecidableEq

namespace NumberTarget

/-- A number that has not been entered yet. -/
def blank : NumberTarget := ⟨"", none, none⟩

/-- The stored form of a number. -/
def fields : List (Field NumberTarget) :=
  [.orNull "beforeConnectModule" [] .text (·.beforeConnectModule)
     ({ · with beforeConnectModule := · }),
   .of "destination" [] .text (·.destination) ({ · with destination := · }),
   .orNull "sendDigits" [] .text (·.sendDigits) ({ · with sendDigits := · })]

end NumberTarget

/-- A registered client of the platform. -/
structure ClientTarget where
  destination : String
  beforeConnectModule : Option String
deriving DecidableEq

namespace ClientTarget

/-- A client that has not been entered yet. -/
def blank : ClientTarget := ⟨"", none⟩

/-- The stored form of a client. -/
def fields : List (Field ClientTarget) :=
  [.orNull "beforeConnectModule" [] .text (·.beforeConnectModule)
     ({ · with beforeConnectModule := · }),
   .of "destination" [] .text (·.destination) ({ · with destination := · })]

end ClientTarget

/-- A named conference room. -/
structure ConferenceTarget where
  destination : String
  nextModule : Option String
  muted : Option Bool
  beep : Option Bool
  startOnEnter : Option Bool
  endOnExit : Option Bool
  waitUrl : Option String
  waitModule : Option String
  waitMethod : Option String
  maxParticipants : Option UInt32
deriving DecidableEq

namespace ConferenceTarget

/-- A room that has not been entered yet. -/
def blank : ConferenceTarget := ⟨"", none, none, none, none, none, none, none, none, none⟩

/-- The stored form of a room. -/
def fields : List (Field ConferenceTarget) :=
  [.orNull "beep" [] .flag (·.beep) ({ · with beep := · }),
   .of "destination" [] .text (·.destination) ({ · with destination := · }),
   .orNull "endConferenceOnExit" [] .flag (·.endOnExit) ({ · with endOnExit := · }),
   .counter "maxParticipants" (·.maxParticipants) ({ · with maxParticipants := · }),
   .orNull "muted" [] .flag (·.muted) ({ · with muted := · }),
   .orNull "nextModule" [] .text (·.nextModule) ({ · with nextModule := · }),
   .orNull "startConferenceOnEnter" [] .flag (·.startOnEnter) ({ · with startOnEnter := · }),
   .orNull "waitMethod" [] .text (·.waitMethod) ({ · with waitMethod := · }),
   .orNull "waitModule" [] .text (·.waitModule) ({ · with waitModule := · }),
   .orNull "waitUrl" [] .text (·.waitUrl) ({ · with waitUrl := · })]

end ConferenceTarget

/-- A SIP address. -/
structure SipTarget where
  destination : String
deriving DecidableEq

namespace SipTarget

/-- An address that has not been entered yet. -/
def blank : SipTarget := ⟨""⟩

/-- The stored form of an address. -/
def fields : List (Field SipTarget) :=
  [.of "destination" [] .text (·.destination) ({ · with destination := · })]

end SipTarget

/-- Something that a dial step rings. -/
inductive DialTarget where
  | number (target : NumberTarget)
  | client (target : ClientTarget)
  | conference (target : ConferenceTarget)
  | sipUri (target : SipTarget)
deriving DecidableEq

/-- What is done about a stored target of an unknown type. -/
inductive TargetPolicy where
  /-- It is left out. -/
  | drop
  /-- The whole step is refused. -/
  | fail
deriving DecidableEq

namespace DialTarget

/-- The type of a target. -/
def dialType : DialTarget → DialType
  | .number _ => .number
  | .client _ => .client
  | .conference _ => .conference
  | .sipUri _ => .sipUri

/-- Where a target is reached. -/
def destination : DialTarget → String
  | .number target => target.destination
  | .client target => target.destination
  | .conference target => target.destination
  | .sipUri target => target.destination

/-- The entries of a target besides its type. -/
def entries : DialTarget → Fields
  | .number target => writeFields NumberTarget.fields target
  | .client target => writeFields ClientTarget.fields target
  | .conference target => writeFields ConferenceTarget.fields target
  | .sipUri target => writeFields SipTarget.fields target

/-- The stored target. -/
def toJson (target : DialTarget) : Json :=
  .obj (target.entries.insert "dialType" (.str target.dialType.word))

/-- Reads the entries of a target of a type. -/
def readEntries (entries : Fields) : DialType → Except Fault DialTarget
  | .number => do return .number (← readFields NumberTarget.fields [] .blank entries)
  | .client => do return .client (← readFields ClientTarget.fields [] .blank entries)
  | .conference => do return .conference (← readFields ConferenceTarget.fields [] .blank entries)
  | .sipUri => do return .sipUri (← readFields SipTarget.fields [] .blank entries)

/-- The tags of stored targets, each with the type of the targets that have it. -/
def tags : List (String × DialType) :=
  [("number", .number), ("client", .client), ("conference", .conference), ("sipuri", .sipUri)]

/-- Reads a target that has a tag: the tag says of which type its entries are. -/
def readTagged (tag : String) (entries : Fields) : Except Fault DialTarget := do
  readEntries entries (← Codec.wordValue tags tag)

/-- The word that a stored value has for its type; without one it counts as empty. -/
def typeWord (stored : Json) : String := ((stored.get? "dialType").bind Json.text?).getD ""

/-- Loads a stored target, or gives none where its type is unknown. The word for a known type is then
the tag of the target. -/
def load? : Json → Except StepError (Option DialTarget)
  | .obj entries =>
    let word := typeWord (.obj entries)
    match DialType.ofWord? word with
    | none => .ok none
    | some _ => do return some (← StoredPart.target.locate (readTagged word entries))
  | _ => .ok none

/-- Loads stored targets in order for the step that is named; a policy says what is done about
those of an unknown type. -/
def loadAll (policy : TargetPolicy) (step : String) : List Json → Except StepError (List DialTarget)
  | [] => .ok []
  | stored :: rest => do
    match ← load? stored with
    | some target => return target :: (← loadAll policy step rest)
    | none =>
      match policy with
      | .drop => loadAll policy step rest
      | .fail => .error (.unknownDialType step (typeWord stored))

end DialTarget

/-! ### Dial steps -/

/-- Connects the caller to targets. -/
structure Dial where
  targets : List DialTarget
  nextModule : Option String
  action : Option String
  method : Option String
  timeout : Option UInt32
  timeLimit : Option UInt32
  callerId : Option String
  record : Option Bool
deriving DecidableEq

namespace Dial

/-- A new dial step, which rings nobody yet. -/
def new : Dial := ⟨[], none, none, none, none, none, none, none⟩

/-- The stored form of a dial step without its targets. -/
def fields : List (Field Dial) :=
  [.orNull "action" [] .text (·.action) ({ · with action := · }),
   .orNull "callerId" [] .text (·.callerId) ({ · with callerId := · }),
   .orNull "method" [] .text (·.method) ({ · with method := · }),
   .orNull "nextModule" [] .text (·.nextModule) ({ · with nextModule := · }),
   .orNull "record" [] .flag (·.record) ({ · with record := · }),
   .counter "timeLimit" (·.timeLimit) ({ · with timeLimit := · }),
   .counter "timeout" (·.timeout) ({ · with timeout := · })]

/-- The stored targets: the array under `targets`, or else the one under `dialNouns`. -/
def storedTargets (entries : Fields) : List Json :=
  (((entries.lookup "targets").bind Json.items?).or
    ((entries.lookup "dialNouns").bind Json.items?)).getD []

/-- The own entries of a dial step. -/
def entries (dial : Dial) : Fields :=
  (writeFields fields dial).insert "targets" (.arr (dial.targets.map DialTarget.toJson))

@[simp] theorem lookup_targets_entries (dial : Dial) :
    dial.entries.lookup "targets" = some (.arr (dial.targets.map DialTarget.toJson)) :=
  Fields.lookup_insert_self _ _ _

end Dial

end IvrFlow
