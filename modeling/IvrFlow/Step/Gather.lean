import IvrFlow.Path.Assignment
import IvrFlow.Step.Speech

/-!
Gathering digits from the caller, as the choice from a menu or as free input. The prompt steps that
are played meanwhile belong to the step and not to what is defined here.
-/

namespace IvrFlow

/-! ### Menus and free input -/

/-- What the digits are taken for. -/
inductive GatherType where
  | menu
  | collectDigits
deriving DecidableEq

namespace GatherType

/-- The word for what digits are taken for. -/
def word : GatherType → String
  | .menu => "menu"
  | .collectDigits => "collectDigits"

/-- How it is stored. -/
def codec : Codec GatherType :=
  .word [("menu", .menu), ("collectDigits", .collectDigits), ("collectdigits", .collectDigits)] word

end GatherType

/-- A choice: the digits to press and the step they lead to. -/
structure MenuMapping where
  digits : String
  next : String
deriving DecidableEq

namespace MenuMapping

/-- A choice that has not been entered yet. -/
def blank : MenuMapping := ⟨"", ""⟩

/-- The stored form of a choice. -/
def form : Record MenuMapping where
  title := "MenuMapping"
  blank := blank
  fields :=
    [.of "digits" [] .textOrNumber (·.digits) ({ · with digits := · }),
     .of "next" [] .text (·.next) ({ · with next := · })]

end MenuMapping

/-- The choices of a menu. -/
structure Menu where
  mappings : List MenuMapping
deriving DecidableEq

namespace Menu

/-- A menu without choices. -/
def blank : Menu := ⟨[]⟩

/-- The stored form of a menu. -/
def form : Record Menu where
  title := "Menu"
  blank := blank
  fields :=
    [.of "mappings" [] (.nullAs [] (.list MenuMapping.form.codec)) (·.mappings)
       ({ · with mappings := · })]

end Menu

/-- Free input: the variable it goes to and the step after it. -/
structure CollectDigits where
  destination : String
  next : String
  scope : Scope
deriving DecidableEq

namespace CollectDigits

/-- Free input that has not been entered yet. -/
def blank : CollectDigits := ⟨"", "", .module⟩

/-- The stored form of free input. -/
def form : Record CollectDigits where
  title := "CollectDigits"
  blank := blank
  fields :=
    [.of "collectVariable" [] .text (·.destination) ({ · with destination := · }),
     .of "next" [] .text (·.next) ({ · with next := · }),
     .of "scope" [] Scope.codec (·.scope) ({ · with scope := · })]

end CollectDigits

/-! ### Validation of the input -/

/-- How a pattern is meant. -/
inductive PatternType where
  | oneOf
  | regex
deriving DecidableEq

namespace PatternType

/-- The word for how a pattern is meant. -/
def word : PatternType → String
  | .oneOf => "One of"
  | .regex => "Regex"

/-- How it is stored. -/
def codec : Codec PatternType := .word [("One of", .oneOf), ("Regex", .regex)] word

end PatternType

/-- The editor's view of the pattern. -/
structure PatternView where
  pattern : String
  type : PatternType
deriving DecidableEq

namespace PatternView

/-- The view of no pattern. -/
def blank : PatternView := ⟨"", .oneOf⟩

/-- The stored form of a view. -/
def form : Record PatternView where
  title := "PatternInterface"
  blank := blank
  fields :=
    [.of "userPattern" [] .text (·.pattern) ({ · with pattern := · }),
     .of "userPatternType" [] PatternType.codec (·.type) ({ · with type := · })]

end PatternView

/-- The pattern that digits must match, and what is announced when they do not. -/
structure Validation where
  announcement : Announcement
  pattern : String
  view : Option PatternView
deriving DecidableEq

namespace Validation

/-- The validation of a new gather step. -/
def new : Validation := ⟨.new, "", some .blank⟩

/-- The pattern as a text. -/
def patternField : Field Validation :=
  .of "pattern" [] (.nullAs "" .text) (·.pattern) ({ · with pattern := · })

/-- The editor's view of the pattern; an empty object stands for none. -/
def viewField : Field Validation :=
  .optional "iface" [] PatternView.form.codec.orEmpty PatternView.form.codec.write (·.view)
    ({ · with view := · })

/-- The stored form of a validation without its announcement. A stored validation has the view that
it stores. -/
def form : Record Validation where
  title := "GatherValidation"
  blank := { new with view := none }
  fields := [viewField, patternField]
  positions := [patternField, viewField]

/-- How a validation is stored; its announcement is written, but read on its own. -/
def codec : Codec Validation where
  read := form.codec.read
  write validation :=
    .obj ((writeFields form.fields validation).insert
      "messageStep" validation.announcement.canonical)

/-- The view of the pattern. It is made from the pattern where there is none, or an empty one beside
a pattern. -/
def reconciledView (validation : Validation) : PatternView :=
  let fromPattern : PatternView := ⟨validation.pattern, .regex⟩
  match validation.view with
  | none => fromPattern
  | some view => if view.pattern = "" ∧ validation.pattern ≠ "" then fromPattern else view

/-- The validation with a normal announcement and a view that shows its pattern. -/
def normalize (validation : Validation) : Validation where
  announcement := validation.announcement.normalize
  pattern := validation.pattern
  view := some validation.reconciledView

end Validation

/-! ### Gather steps -/

/-- How digits are gathered. -/
structure Gather where
  action : Option String
  method : String
  timeout : Option UInt32
  finishOnKey : Option String
  numDigits : Option UInt32
  validation : Validation
  gatherType : GatherType
  menu : Option Menu
  collectDigits : Option CollectDigits
deriving DecidableEq

namespace Gather

/-- How a new gather step gathers. -/
def new : Gather := ⟨none, "GET", none, none, none, .new, .menu, some .blank, some .blank⟩

/-- The stored form of a gather step without its prompts. -/
def fields : List (Field Gather) :=
  [.orNull "action" [] .text (·.action) ({ · with action := · }),
   .orNull "collectDigits" ["collectdigits"] CollectDigits.form.codec (·.collectDigits)
     ({ · with collectDigits := · }),
   .orNull "finishOnKey" [] .text (·.finishOnKey) ({ · with finishOnKey := · }),
   .of "gatherType" [] GatherType.codec (·.gatherType) ({ · with gatherType := · }),
   .orNull "menu" [] Menu.form.codec (·.menu) ({ · with menu := · }),
   .of "method" [] .text (·.method) ({ · with method := · }),
   .counter "numDigits" (·.numDigits) ({ · with numDigits := · }),
   .counter "timeout" (·.timeout) ({ · with timeout := · }),
   .of "validation" [] (.nullAs .new Validation.codec) (·.validation) ({ · with validation := · })]

/-- Loads the announcement that a stored validation may hold. -/
def loadAnnouncement (entries : Fields) (gather : Gather) : Except StepError Gather :=
  match (entries.lookup "validation").bind (Json.get? "messageStep") with
  | none => .ok gather
  | some stored => do
    let announcement ← Announcement.load stored
    return { gather with validation := { gather.validation with announcement := announcement } }

/-- Gathering with a normal validation and with both a menu and free input present. -/
def normalize (gather : Gather) : Gather :=
  { gather with
    validation := gather.validation.normalize
    menu := some (gather.menu.getD .blank)
    collectDigits := some (gather.collectDigits.getD .blank) }

/-- Gathering with nothing but what the digits are taken for. -/
def prune (gather : Gather) : Gather :=
  match gather.gatherType with
  | .menu => { gather with collectDigits := none }
  | .collectDigits => { gather with menu := none }

end Gather

end IvrFlow
