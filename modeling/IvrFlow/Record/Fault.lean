import IvrFlow.Json.Printer
import IvrFlow.Text.Quoted

/-!
What can be wrong with a stored value, each cause with its wording.
-/

namespace IvrFlow

/-- A value as a fault names it: scalars with what they hold, containers by their shape. -/
def Json.description : Json → String
  | .null => "null"
  | .bool true => "boolean `true`"
  | .bool false => "boolean `false`"
  | .num (.real value) => "floating point `" ++ String.ofList (Number.real value).text ++ "`"
  | .num value => "integer `" ++ String.ofList value.text ++ "`"
  | .str text => "string " ++ Text.quoted text
  | .arr _ => "sequence"
  | .obj _ => "map"

/-- Why a stored value does not have the form it should have. -/
inductive Fault where
  /-- The value is of another type than the expected one. -/
  | wrongType (found : Json) (expected : String)
  /-- The value is of the expected type, but none of its values. -/
  | wrongValue (found : Json) (expected : String)
  /-- A word that is none of the accepted ones. -/
  | unknownWord (found : String) (accepted : List String)
  /-- A field that is stored twice, under two of its keys. -/
  | duplicateField (name : String)
  /-- A field that must be there and is not. -/
  | missingField (name : String)
  /-- An array form that ends before a field that must be there. -/
  | arrayTooShort (length : Nat) (expected : String)
  /-- An array form with more items than fields. -/
  | arrayTooLong (length : Nat)
  /-- A counter that is neither a whole number nor a text. -/
  | notCounter
  /-- A counter given as a text with something else than digits in it. -/
  | notDigits
  /-- A counter past the greatest one. -/
  | tooLarge
  /-- Neither a text nor a number. -/
  | notTextOrNumber (found : Json)
  /-- Something else than an object where only an object can stand. -/
  | notObject
deriving DecidableEq

/-- Names in backticks, as the choice that a fault offers. -/
def Fault.choice (names : List String) : String :=
  let quoted := names.map fun name => "`" ++ name ++ "`"
  match quoted with
  | [one] => one
  | [one, other] => one ++ " or " ++ other
  | _ => "one of " ++ ", ".intercalate quoted

/-- The wording of a fault. -/
def Fault.message : Fault → String
  | .wrongType found expected => "invalid type: " ++ found.description ++ ", expected " ++ expected
  | .wrongValue found expected =>
    "invalid value: " ++ found.description ++ ", expected " ++ expected
  | .unknownWord found accepted =>
    "unknown variant `" ++ found ++ "`, expected " ++ choice accepted
  | .duplicateField name => "duplicate field `" ++ name ++ "`"
  | .missingField name => "missing field `" ++ name ++ "`"
  | .arrayTooShort length expected =>
    "invalid length " ++ toString length ++ ", expected " ++ expected
  | .arrayTooLong length =>
    "invalid length " ++ toString length ++ ", expected fewer elements in array"
  | .notCounter => "data did not match any variant of untagged enum NumberOrText"
  | .notDigits => "invalid digit found in string"
  | .tooLarge => "number too large to fit in target type"
  | .notTextOrNumber found => "expected a string or number, found " ++ found.compactText
  | .notObject => "expected a JSON object"

end IvrFlow
