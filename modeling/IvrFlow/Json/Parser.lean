import IvrFlow.Json.Value

/-!
Reading a JSON document. A text that is no document is refused at the first byte that cannot
belong to one, and the refusal says why and at which line and column.

Nesting is bounded: `value depth` reads a value with at most `depth` containers around each other.
-/

namespace IvrFlow.Json

/-! ### Refusals -/

/-- Why a text is not a JSON document. -/
inductive Problem where
  | endInValue
  | endInList
  | endInObject
  | endInString
  | noValue
  | badWord
  | badNumber
  | infiniteNumber
  | controlCharacter
  | badEscape
  | cutSurrogates
  | loneSurrogate
  | keyNotText
  | noColon
  | noListEnd
  | noObjectEnd
  | trailingComma
  | trailingText
  | tooDeep
deriving DecidableEq

/-- The wording of a problem. -/
def Problem.message : Problem → String
  | .endInValue => "EOF while parsing a value"
  | .endInList => "EOF while parsing a list"
  | .endInObject => "EOF while parsing an object"
  | .endInString => "EOF while parsing a string"
  | .noValue => "expected value"
  | .badWord => "expected ident"
  | .badNumber => "invalid number"
  | .infiniteNumber => "number out of range"
  | .controlCharacter => "control character (\\u0000-\\u001F) found while parsing a string"
  | .badEscape => "invalid escape"
  | .cutSurrogates => "unexpected end of hex escape"
  | .loneSurrogate => "lone leading surrogate in hex escape"
  | .keyNotText => "key must be a string"
  | .noColon => "expected `:`"
  | .noListEnd => "expected `,` or `]`"
  | .noObjectEnd => "expected `,` or `\x7d`"
  | .trailingComma => "trailing comma"
  | .trailingText => "trailing characters"
  | .tooDeep => "recursion limit exceeded"

/-- A refusal `ahead` bytes into the text that was left, or at its end if it is shorter. -/
structure Refusal where
  problem : Problem
  rest : List Char
  ahead : Nat
deriving DecidableEq

/-- Reads the start of a text: what was read, and the text left after it. -/
abbrev Scanner (α : Type) := List Char → Except Refusal (α × List Char)

/-- Refuses the next byte of the text that is left. -/
def refuseNext {α : Type} (problem : Problem) (rest : List Char) : Except Refusal α :=
  .error ⟨problem, rest, 1⟩

/-- Refuses what has been read up to the text that is left. -/
def refuseRead {α : Type} (problem : Problem) (rest : List Char) : Except Refusal α :=
  .error ⟨problem, rest, 0⟩

/-! ### Blanks, words and numbers -/

/-- The four characters that may stand between the parts of a document. -/
def isGap (c : Char) : Bool := c = ' ' || c = '\t' || c = '\n' || c = '\r'

/-- The text after its leading blanks. -/
def skipGap (text : List Char) : List Char := text.dropWhile isGap

/-- The rest of a word that stands for a value. -/
def word (value : Json) : List Char → Scanner Json
  | [], rest => .ok (value, rest)
  | _ :: _, [] => refuseRead .endInValue []
  | c :: cs, d :: rest => if c = d then word value cs rest else refuseNext .badWord (d :: rest)

/-- One or more digits; `missing` refuses a text that starts with none. -/
def digits : Scanner (List Char) := fun text =>
  match text with
  | [] => refuseRead .endInValue []
  | c :: _ =>
    if c.isDigit then .ok (text.takeWhile Char.isDigit, text.dropWhile Char.isDigit)
    else refuseNext .badNumber text

/-- The whole part of a number, which has no leading zero. -/
def wholePart : Scanner (List Char)
  | '0' :: c :: rest =>
    if c.isDigit then refuseNext .badNumber (c :: rest) else .ok (['0'], c :: rest)
  | text => digits text

/-- The digits after a point, if there is one. -/
def places : Scanner (Option (List Char))
  | '.' :: rest => do
    let (ds, rest) ← digits rest
    return (some ds, rest)
  | text => .ok (none, text)

/-- The greatest exponent that is read to its end. -/
def greatestExponent : Nat := 2147483647

/-- The digits of an exponent up to the first that carries it past the greatest one, and the rest of
the text if there is such a digit. -/
def exponentOverflow (read : Nat) : List Char → Option (List Char)
  | [] => none
  | c :: rest =>
    if c.isDigit then
      let next := 10 * read + (c.toNat - '0'.toNat)
      if greatestExponent < next then some rest else exponentOverflow next rest
    else none

/-- The power of ten after an `e` that follows the significand `read`, if there is one. A power too
large for any nonzero significand is refused at the digit that makes it so. -/
def power (read : Nat) : Scanner (Option Int)
  | [] => .ok (none, [])
  | e :: rest =>
    if e = 'e' ∨ e = 'E' then do
      let (negative, rest) :=
        match rest with
        | '-' :: rest => (true, rest)
        | '+' :: rest => (false, rest)
        | rest => (false, rest)
      let (ds, left) ← digits rest
      if negative then return (some (-(Nat.ofDigitChars 10 ds 0 : Int)), left)
      else
        match exponentOverflow 0 rest with
        | some cut =>
          if read = 0 then return (some 0, left) else refuseRead .infiniteNumber cut
        | none => return (some (Nat.ofDigitChars 10 ds 0 : Int), left)
    else .ok (none, e :: rest)

/-- A whole number keeps its value if it fits 64 bits. -/
def integer? (negative : Bool) (value : Nat) : Option Number :=
  if negative then
    if h : 0 < value ∧ value ≤ 0x8000000000000000 then
      some (.negative ⟨value - 1, Nat.lt_of_lt_of_le (Nat.sub_lt h.1 Nat.one_pos) h.2⟩)
    else none
  else if value < UInt64.size then some (.natural value.toUInt64)
  else none

/-- A significand with more digits read, as long as it fits 64 bits, and the digits left out from
the first that does not. -/
def significand (read : Nat) : List Char → Nat × List Char
  | [] => (read, [])
  | c :: rest =>
    let next := 10 * read + (c.toNat - '0'.toNat)
    if next < UInt64.size then significand next rest else (read, c :: rest)

/-- A number after its sign. A digit left out of the significand counts as one more power of ten
before the point, and as none after it. -/
def number (negative : Bool) : Scanner Json := fun text => do
  let (whole, rest) ← wholePart text
  let (part, rest) ← places rest
  let (wholeRead, dropped) := significand 0 whole
  let (read, droppedPlaces) := significand wholeRead (part.getD [])
  let (exponent, rest) ← power read rest
  match part, exponent, integer? negative (Nat.ofDigitChars 10 whole 0) with
  | none, none, some value => return (.num value, rest)
  | _, _, _ =>
    let shift : Int := dropped.length + droppedPlaces.length - (part.getD []).length
    match Binary64.ofDecimal? negative read (exponent.getD 0 + shift) with
    | some value => return (.num (.real value), rest)
    | none => refuseRead .infiniteNumber rest

/-! ### Strings -/

/-- The value of a hexadecimal digit. -/
def hexDigit? (c : Char) : Option Nat :=
  if c.isDigit then some (c.toNat - '0'.toNat)
  else if 'a' ≤ c ∧ c ≤ 'f' then some (c.toNat - 'a'.toNat + 10)
  else if 'A' ≤ c ∧ c ≤ 'F' then some (c.toNat - 'A'.toNat + 10)
  else none

/-- The value of four hexadecimal digits. -/
def hexUnit? (a b c d : Char) : Option Nat := do
  return 0x1000 * (← hexDigit? a) + 0x100 * (← hexDigit? b) + 0x10 * (← hexDigit? c) +
    (← hexDigit? d)

/-- How many bytes a text takes. -/
def byteLength (text : List Char) : Nat := text.foldl (fun bytes c => bytes + c.utf8Size) 0

/-- Refuses a text that does not start with four hexadecimal digits: after its fourth byte, or at
its end if it has fewer. -/
def refuseHex {α : Type} (text : List Char) : Except Refusal α :=
  if byteLength text < 4 then refuseRead .endInString []
  else .error ⟨.badEscape, text, 4⟩

/-- The character that a letter after a backslash stands for. -/
def escapedChar? (c : Char) : Option Char :=
  if c = '"' ∨ c = '\\' ∨ c = '/' then some c
  else if c = 'b' then some '\x08'
  else if c = 'f' then some '\x0c'
  else if c = 'n' then some '\n'
  else if c = 'r' then some '\r'
  else if c = 't' then some '\t'
  else none

/-- Whether a unit leads a surrogate pair. -/
def isLeading (unit : Nat) : Bool := 0xD800 ≤ unit && unit < 0xDC00

/-- Whether a unit trails a surrogate pair. -/
def isTrailing (unit : Nat) : Bool := 0xDC00 ≤ unit && unit < 0xE000

/-- The character of a surrogate pair. -/
def pairChar (leading trailing : Nat) : Char :=
  Char.ofNat (0x10000 + 0x400 * (leading - 0xD800) + (trailing - 0xDC00))

/-- Refuses a leading surrogate that no second escape follows. -/
def refuseCut {α : Type} : List Char → Except Refusal α
  | [] | ['\\'] => refuseRead .endInString []
  | '\\' :: rest => refuseNext .cutSurrogates rest
  | rest => refuseNext .cutSurrogates rest

/-- The rest of a string after its opening quote; `read` holds what has been read of it, last
character first. -/
def stringBody (read : List Char) : Scanner (List Char)
  | [] => refuseRead .endInString []
  | c :: rest =>
    if c = '"' then .ok (read.reverse, rest)
    else if c = '\\' then
      match rest with
      | [] => refuseRead .endInString []
      | 'u' :: a :: b :: c :: d :: rest =>
        match hexUnit? a b c d with
        | none => refuseHex (a :: b :: c :: d :: rest)
        | some unit =>
          if isTrailing unit then refuseRead .loneSurrogate rest
          else if isLeading unit then
            match rest with
            | '\\' :: 'u' :: a :: b :: c :: d :: rest =>
              match hexUnit? a b c d with
              | none => refuseHex (a :: b :: c :: d :: rest)
              | some second =>
                if isTrailing second then stringBody (pairChar unit second :: read) rest
                else refuseRead .loneSurrogate rest
            | '\\' :: 'u' :: short => refuseHex short
            | other => refuseCut other
          else stringBody (Char.ofNat unit :: read) rest
      | 'u' :: short => refuseHex short
      | letter :: rest =>
        match escapedChar? letter with
        | some c => stringBody (c :: read) rest
        | none => refuseNext .badEscape (letter :: rest)
    else if c.toNat < 0x20 then refuseNext .controlCharacter (c :: rest)
    else stringBody (c :: read) rest

/-- A string after its opening quote. -/
def string : Scanner String := fun text => do
  let (chars, rest) ← stringBody [] text
  return (String.ofList chars, rest)

/-! ### Containers -/

/-- The items of an array from one item on, up to the closing bracket. Each takes a character, so
as many are read as the text has characters. -/
def items (item : Scanner Json) : Nat → Scanner (List Json)
  | 0, _ => refuseRead .endInList []
  | more + 1, text => do
    let (first, rest) ← item text
    match skipGap rest with
    | [] => refuseRead .endInList []
    | ']' :: rest => return ([first], rest)
    | ',' :: rest =>
      match skipGap rest with
      | [] => refuseRead .endInValue []
      | ']' :: rest => refuseNext .trailingComma (']' :: rest)
      | next =>
        let (others, rest) ← items item more next
        return (first :: others, rest)
    | other => refuseNext .noListEnd other

/-- An array after its opening bracket. -/
def array (item : Scanner Json) : Scanner Json := fun text =>
  match skipGap text with
  | [] => refuseRead .endInList []
  | ']' :: rest => .ok (.arr [], rest)
  | first => do
    let (values, rest) ← items item first.length first
    return (.arr values, rest)

/-- A key, a colon and a value. -/
def entry (value : Scanner Json) : Scanner (String × Json)
  | '"' :: text => do
    let (key, rest) ← string text
    match skipGap rest with
    | [] => refuseRead .endInObject []
    | ':' :: rest =>
      let (stored, rest) ← value rest
      return ((key, stored), rest)
    | other => refuseNext .noColon other
  | text => refuseNext .keyNotText text

/-- The entries of an object from one entry on, up to the closing brace. Each takes a character, so
as many are read as the text has characters. -/
def entries (value : Scanner Json) : Nat → Scanner (List (String × Json))
  | 0, _ => refuseRead .endInObject []
  | more + 1, text => do
    let (first, rest) ← entry value text
    match skipGap rest with
    | [] => refuseRead .endInObject []
    | '\x7d' :: rest => return ([first], rest)
    | ',' :: rest =>
      match skipGap rest with
      | [] => refuseRead .endInValue []
      | '\x7d' :: rest => refuseNext .trailingComma ('\x7d' :: rest)
      | next =>
        let (others, rest) ← entries value more next
        return (first :: others, rest)
    | other => refuseNext .noObjectEnd other

/-- An object after its opening brace. -/
def object (value : Scanner Json) : Scanner Json := fun text =>
  match skipGap text with
  | [] => refuseRead .endInObject []
  | '\x7d' :: rest => .ok (.obj [], rest)
  | first => do
    let (read, rest) ← entries value first.length first
    return (.obj (Fields.ofList read), rest)

/-! ### Values and documents -/

/-- A value whose containers are read by `list` and `fields`, from their opening bracket on. -/
def valueBy (list fields : Scanner Json) : Scanner Json := fun text =>
  match skipGap text with
  | [] => refuseRead .endInValue []
  | c :: rest =>
    if c = '[' then list (c :: rest)
    else if c = '\x7b' then fields (c :: rest)
    else if c = '"' then do
      let (read, rest) ← string rest
      return (.str read, rest)
    else if c = '-' then number true rest
    else if c.isDigit then number false (c :: rest)
    else if c = 'n' then word .null ['u', 'l', 'l'] rest
    else if c = 't' then word (.bool true) ['r', 'u', 'e'] rest
    else if c = 'f' then word (.bool false) ['a', 'l', 's', 'e'] rest
    else refuseNext .noValue (c :: rest)

/-- A value with at most `depth` containers around each other. -/
def value : Nat → Scanner Json
  | 0 => valueBy (refuseNext .tooDeep) (refuseNext .tooDeep)
  | depth + 1 =>
    valueBy (fun text => array (value depth) (text.drop 1))
      (fun text => object (value depth) (text.drop 1))

/-- A refusal with its place: the line, and the byte on that line, both counted from one. The
column is zero just after a line end. -/
structure SyntaxError where
  problem : Problem
  line : Nat
  column : Nat
deriving DecidableEq

/-- The wording of a refusal with its place. -/
def SyntaxError.message (e : SyntaxError) : String :=
  e.problem.message ++ " at line " ++ toString e.line ++ " column " ++ toString e.column

/-- The line and the column that are reached by going on over a number of bytes. -/
def place (line column : Nat) : Nat → List Char → Nat × Nat
  | _, [] => (line, column)
  | bytes, c :: rest =>
    if bytes = 0 then (line, column)
    else if c = '\n' then place (line + 1) 0 (bytes - 1) rest
    else if c.utf8Size ≤ bytes then place line (column + c.utf8Size) (bytes - c.utf8Size) rest
    else (line, column + bytes)

/-- A refusal located in the whole text. -/
def Refusal.located (text : List Char) (refusal : Refusal) : SyntaxError :=
  let read := byteLength text - byteLength refusal.rest
  let (line, column) := place 1 0 (read + refusal.ahead) text
  ⟨refusal.problem, line, column⟩

/-- Reads a whole text as one value with at most `depth` containers around each other. -/
def parseWithin (depth : Nat) (text : String) : Except SyntaxError Json :=
  match value depth text.toList with
  | .error refusal => .error (refusal.located text.toList)
  | .ok (read, rest) =>
    match skipGap rest with
    | [] => .ok read
    | other => .error (Refusal.located text.toList ⟨.trailingText, other, 1⟩)

/-- How many containers a document may nest. -/
def nestingLimit : Nat := 127

/-- Reads a document. -/
def parse (text : String) : Except SyntaxError Json := parseWithin nestingLimit text

end IvrFlow.Json
