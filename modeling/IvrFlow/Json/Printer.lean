import IvrFlow.Json.Decimal
import IvrFlow.Json.Value

/-!
The text of JSON values: on one line without blanks, and indented by two spaces a level.
-/

namespace IvrFlow.Json

/-! ### Strings -/

/-- The four hexadecimal digits of a control character. -/
def controlDigits (c : Char) : List Char :=
  ['0', '0', Nat.digitChar (c.toNat / 16), Nat.digitChar (c.toNat % 16)]

/-- A character inside a JSON string. Only the quote, the backslash and the control characters are
escaped. -/
def escaped (c : Char) : List Char :=
  if c = '"' then ['\\', '"']
  else if c = '\\' then ['\\', '\\']
  else if c = '\x08' then ['\\', 'b']
  else if c = '\x0c' then ['\\', 'f']
  else if c = '\n' then ['\\', 'n']
  else if c = '\r' then ['\\', 'r']
  else if c = '\t' then ['\\', 't']
  else if c.toNat < 0x20 then '\\' :: 'u' :: controlDigits c
  else [c]

/-- A text as a JSON string. -/
def quote (text : String) : List Char := '"' :: text.toList.flatMap escaped ++ ['"']

/-! ### Values on one line -/

mutual

/-- A value without any blank. -/
def compact : Json → List Char
  | .null => ['n', 'u', 'l', 'l']
  | .bool true => ['t', 'r', 'u', 'e']
  | .bool false => ['f', 'a', 'l', 's', 'e']
  | .num value => value.text
  | .str text => quote text
  | .arr items => '[' :: compactItems items ++ [']']
  | .obj fields => '\x7b' :: compactFields fields ++ ['\x7d']

/-- The items of an array, separated by commas. -/
def compactItems : List Json → List Char
  | [] => []
  | [item] => compact item
  | item :: next :: rest => compact item ++ ',' :: compactItems (next :: rest)

/-- The entries of an object, separated by commas. -/
def compactFields : List (String × Json) → List Char
  | [] => []
  | [(key, value)] => quote key ++ ':' :: compact value
  | (key, value) :: next :: rest =>
    quote key ++ ':' :: compact value ++ ',' :: compactFields (next :: rest)

end

/-! ### Indented values -/

/-- A new line with the indentation of a level. -/
def newLine (level : Nat) : List Char := '\n' :: List.replicate (2 * level) ' '

mutual

/-- A value whose first line stands at a level. An empty container takes no lines of its own. -/
def indented (level : Nat) : Json → List Char
  | .arr [] => ['[', ']']
  | .arr (item :: rest) =>
    '[' :: newLine (level + 1) ++ indented (level + 1) item ++
      indentedItems (level + 1) rest ++ newLine level ++ [']']
  | .obj [] => ['\x7b', '\x7d']
  | .obj ((key, value) :: rest) =>
    '\x7b' :: newLine (level + 1) ++ quote key ++ ':' :: ' ' :: indented (level + 1) value ++
      indentedFields (level + 1) rest ++ newLine level ++ ['\x7d']
  | value => compact value

/-- The items after the first, each after a comma on a line of its own. -/
def indentedItems (level : Nat) : List Json → List Char
  | [] => []
  | item :: rest => ',' :: newLine level ++ indented level item ++ indentedItems level rest

/-- The entries after the first, each after a comma on a line of its own. -/
def indentedFields (level : Nat) : List (String × Json) → List Char
  | [] => []
  | (key, value) :: rest =>
    ',' :: newLine level ++ quote key ++ ':' :: ' ' :: indented level value ++
      indentedFields level rest

end

/-- The text of a value on one line. -/
def compactText (value : Json) : String := String.ofList value.compact

/-- The text of a value over several lines. -/
def prettyText (value : Json) : String := String.ofList (value.indented 0)

end IvrFlow.Json
