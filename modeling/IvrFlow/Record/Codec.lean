import IvrFlow.Record.Fault

/-!
Codecs: how a value of a type is read from JSON and written as JSON. These are the scalars, lists
and words that the fields of stored records hold.
-/

namespace IvrFlow

/-- How a type is stored: `read` takes every accepted form, `write` gives the canonical one. -/
structure Codec (α : Type) where
  read : Json → Except Fault α
  write : α → Json

namespace Codec

variable {α : Type}

/-- A text. -/
def text : Codec String where
  read
    | .str value => .ok value
    | other => .error (.wrongType other "a string")
  write := .str

/-- A truth value. -/
def flag : Codec Bool where
  read
    | .bool value => .ok value
    | other => .error (.wrongType other "a boolean")
  write := .bool

/-- A whole number from zero up. -/
def natural : Codec UInt64 where
  read
    | .num (.natural value) => .ok value
    | .num (.negative below) => .error (.wrongValue (.num (.negative below)) "u64")
    | other => .error (.wrongType other "u64")
  write value := .num (.natural value)

/-- Any value, kept as it is. -/
def any : Codec Json where
  read := .ok
  write := id

/-- The items of an array; the first fault among them counts. -/
def list (item : Codec α) : Codec (List α) where
  read
    | .arr items => items.mapM item.read
    | other => .error (.wrongType other "a sequence")
  write values := .arr (values.map item.write)

/-- A codec that reads null as a given value. -/
def nullAs (value : α) (codec : Codec α) : Codec α where
  read
    | .null => .ok value
    | stored => codec.read stored
  write := codec.write

/-- The value of a word, or the fault that lists the accepted words. -/
def wordValue (words : List (String × α)) (word : String) : Except Fault α :=
  match words.lookup word with
  | some value => .ok value
  | none => .error (.unknownWord word (words.map Prod.fst))

/-- One of a few values, each stored as a word. A value may have several words, of which `spell`
gives the canonical one, and a word may also be the only key of an object that holds null. -/
def word (words : List (String × α)) (spell : α → String) : Codec α where
  read
    | .str found => wordValue words found
    | .obj [(key, content)] => do
      let value ← wordValue words key
      match content with
      | .null => .ok value
      | other => .error (.wrongType other "unit")
    | .obj fields => .error (.wrongValue (.obj fields) "map with a single key")
    | other => .error (.wrongType other "string or map")
  write value := .str (spell value)

/-- A text that may be stored as a number, or as null if it is empty. -/
def textOrNumber : Codec String where
  read
    | .str value => .ok value
    | .num value => .ok (String.ofList value.text)
    | .null => .ok ""
    | other => .error (.notTextOrNumber other)
  write := .str

/-! ### Values that may be absent -/

/-- Reads null as absence. -/
def orNull (codec : Codec α) : Json → Except Fault (Option α)
  | .null => .ok none
  | stored => do return some (← codec.read stored)

/-- Reads null and the empty object as absence. -/
def orEmpty (codec : Codec α) : Json → Except Fault (Option α)
  | .null | .obj [] => .ok none
  | stored => do return some (← codec.read stored)

end Codec

end IvrFlow
