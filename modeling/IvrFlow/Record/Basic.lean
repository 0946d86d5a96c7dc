import IvrFlow.Record.Codec
import IvrFlow.Record.Counter

/-!
Stored records. The form of a record is the list of its fields, each with its key, its older keys,
and how it is read and written. A record is read from an object entry by entry in the order of the
keys, so the first entry with a fault decides; entries under other keys are passed over, and fields
without an entry keep what a blank record has.
-/

namespace IvrFlow

/-- A field of a stored record. `read` puts a stored value into a record, and `write` gives the
stored value, or none where the field is left out. -/
structure Field (α : Type) where
  name : String
  aliases : List String
  read : Json → α → Except Fault α
  write : α → Option Json

namespace Field

variable {α β : Type}

/-- A field that is always written. -/
def of (name : String) (aliases : List String) (codec : Codec β) (get : α → β)
    (set : α → β → α) : Field α where
  name := name
  aliases := aliases
  read stored record := do return set record (← codec.read stored)
  write record := some (codec.write (get record))

/-- A field that is left out when it has no value. -/
def optional (name : String) (aliases : List String) (read : Json → Except Fault (Option β))
    (write : β → Json) (get : α → Option β) (set : α → Option β → α) : Field α where
  name := name
  aliases := aliases
  read stored record := do return set record (← read stored)
  write record := (get record).map write

/-- A field with an optional value, for which null stands when it is absent. -/
def orNull (name : String) (aliases : List String) (codec : Codec β) (get : α → Option β)
    (set : α → Option β → α) : Field α :=
  optional name aliases codec.orNull codec.write get set

/-- A field with an optional counter. -/
def counter (name : String) (get : α → Option UInt32) (set : α → Option UInt32 → α) : Field α :=
  optional name [] Counter.read Counter.write get set

/-- Whether an entry under a key belongs to a field. -/
def accepts (field : Field α) (key : String) : Bool :=
  key == field.name || field.aliases.contains key

end Field

variable {α : Type}

/-- Reads entries into a record. `seen` are the fields that have had an entry already: a second one
is a fault, whatever it holds. -/
def readFields (fields : List (Field α)) (seen : List String) (record : α) :
    Fields → Except Fault α
  | [] => .ok record
  | (key, stored) :: rest =>
    match fields.find? (·.accepts key) with
    | none => readFields fields seen record rest
    | some field =>
      if seen.contains field.name then .error (.duplicateField field.name)
      else do readFields fields (field.name :: seen) (← field.read stored record) rest

/-- The entries of a record, in the order of its fields. -/
def writeFields (fields : List (Field α)) (record : α) : Fields :=
  fields.filterMap fun field => (field.write record).map (field.name, ·)

/-- The form of a record that may also be stored as the array of its fields. `fields` are in the
order of their keys, and `positions` in the order of the array, which need not be the same. A
required field comes first in the array. -/
structure Record (α : Type) where
  title : String
  blank : α
  fields : List (Field α)
  positions : List (Field α) := fields
  required : List String := []

namespace Record

/-- Reads the items of the array form into a record; items past the last field are left. -/
def readItems (record : α) : List (Field α) → List Json → Except Fault (α × List Json)
  | field :: fields, item :: items => do readItems (← field.read item record) fields items
  | _, items => .ok (record, items)

/-- Reads the array form of a record. -/
def readArray (form : Record α) (items : List Json) : Except Fault α :=
  if items.length < form.required.length then
    .error (.arrayTooShort items.length
      ("struct " ++ form.title ++ " with " ++ toString form.positions.length ++ " elements"))
  else do
    let (record, left) ← readItems form.blank form.positions items
    if left.isEmpty then .ok record else .error (.arrayTooLong items.length)

/-- Reads the object form of a record. -/
def readObject (form : Record α) (entries : Fields) : Except Fault α := do
  let record ← readFields form.fields [] form.blank entries
  match form.required.find? fun name => (entries.lookup name).isNone with
  | some name => .error (.missingField name)
  | none => .ok record

/-- How a record is stored. -/
def codec (form : Record α) : Codec α where
  read
    | .obj entries => form.readObject entries
    | .arr items => form.readArray items
    | other => .error (.wrongType other ("struct " ++ form.title))
  write record := .obj (writeFields form.fields record)

end Record

end IvrFlow
