import IvrFlow.Record.Basic

/-!
Hops of a value path. A path leads into a JSON value hop by hop: to a property of an object, to an
item of an array, and at last to the value that has been reached.

A hop that is still edited may hold anything. Committing it checks what its kind needs, keeps that
alone, and fixes its notation.
-/

namespace IvrFlow

/-- What a hop goes to. -/
inductive HopKind where
  | property
  | index
  | terminal
deriving DecidableEq

namespace HopKind

/-- The word for a kind of hop. -/
def word : HopKind → String
  | .property => "property"
  | .index => "index"
  | .terminal => "value"

/-- Every word that stands for a kind of hop. -/
def words : List (String × HopKind) :=
  [("object", .property), ("property", .property), ("array", .index), ("index", .index),
   ("terminal", .terminal), ("value", .terminal)]

/-- The kind that a word stands for. -/
def ofWord? (word : String) : Option HopKind := words.lookup word

/-- The wording for a word that stands for no kind of hop. -/
def unknownMessage (word : String) : String := "unknown access operation kind '" ++ word ++ "'"

/-- How a kind of hop is stored. -/
def codec : Codec HopKind := .word words word

/-- Whether a hop of this kind ends a path. -/
def isTerminal (kind : HopKind) : Bool := kind == .terminal

/-- Whether a word stands for the hop that ends a path. -/
def isTerminalWord (word : String) : Bool := (ofWord? word).any isTerminal

end HopKind

/-- Why a path cannot be changed as asked. -/
inductive PathError where
  | missingProperty
  | missingPosition
  | closed
  | unterminated
deriving DecidableEq

/-- The wording of a path error. -/
def PathError.message : PathError → String
  | .missingProperty => "a property access needs a non-empty property name"
  | .missingPosition => "an index access needs a position"
  | .closed => "the path already ends in a terminal value and accepts no further operations"
  | .unterminated => "a path can only be finished with a terminal value operation"

/-- One hop of a path. Committing it sets `fixed`, and `rendered` to its notation. -/
structure Hop where
  kind : HopKind
  fixed : Bool
  property : Option String
  position : Option UInt32
  rendered : Option String
deriving DecidableEq

namespace Hop

/-- The hop that editing starts from: to a property that has no name yet. -/
def template : Hop := ⟨.property, false, none, none, none⟩

/-- A hop to a property. -/
def toProperty (name : String) : Hop := { template with property := some name }

/-- A hop to an item of an array. -/
def toIndex (position : UInt32) : Hop := { template with kind := .index, position := some position }

/-- The hop that ends a path. -/
def toValue : Hop := { template with kind := .terminal }

/-- The notation of a committed hop; none shows before. -/
def shown (hop : Hop) : String := hop.rendered.getD ""

/-- The hop as it is committed, or what it lacks. -/
def commit (hop : Hop) : Except PathError Hop :=
  match hop.kind with
  | .property =>
    match hop.property with
    | none | some "" => .error .missingProperty
    | some name => .ok ⟨.property, true, some name, none, some ("." ++ name)⟩
  | .index =>
    match hop.position with
    | none => .error .missingPosition
    | some position =>
      .ok ⟨.index, true, none, some position, some ("[" ++ toString position.toNat ++ "]")⟩
  | .terminal => .ok ⟨.terminal, true, none, none, some " value"⟩

/-- A committed hop made editable again. -/
def reopen (hop : Hop) : Hop := { hop with fixed := false, rendered := none }

/-! ### Stored form -/

/-- What the hop goes to. -/
def kindField : Field Hop := .of "kind" [] HopKind.codec (·.kind) ({ · with kind := · })

/-- The name of the property. -/
def propertyField : Field Hop :=
  .orNull "property" [] .text (·.property) ({ · with property := · })

/-- The position of the item. -/
def positionField : Field Hop := .counter "position" (·.position) ({ · with position := · })

/-- The stored form of a hop: what it needs, without its notation. -/
def form : Record Hop where
  title := "AccessOperation"
  blank := template
  fields := [kindField, positionField, propertyField]
  positions := [kindField, propertyField, positionField]
  required := ["kind"]

end Hop

end IvrFlow
