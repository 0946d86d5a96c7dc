import IvrFlow.Text.Unprintable

/-!
Text as a message quotes it: between double quotes, with an escape for the quote, the backslash,
the usual control characters and every character that would not show.
-/

namespace IvrFlow.Text

/-- The escape of a character by its code point, such as `\u{1f}`. -/
def codePointEscape (c : Char) : List Char :=
  ['\\', 'u', '\x7b'] ++ Nat.toDigits 16 c.toNat ++ ['\x7d']

/-- A character inside a quoted text. A single quote stands for itself. -/
def quotedChar (c : Char) : List Char :=
  if c = '"' then ['\\', '"']
  else if c = '\\' then ['\\', '\\']
  else if c = '\n' then ['\\', 'n']
  else if c = '\r' then ['\\', 'r']
  else if c = '\t' then ['\\', 't']
  else if c = '\x00' then ['\\', '0']
  else if unprintable.contains c then codePointEscape c
  else [c]

/-- A text in double quotes, escaped so that each of its characters shows. -/
def quoted (text : String) : String :=
  String.ofList (['"'] ++ text.toList.flatMap quotedChar ++ ['"'])

end IvrFlow.Text
