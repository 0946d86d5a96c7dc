import IvrFlow.Record.Fault
import IvrFlow.Text.Blank

/-!
Optional counters and durations. They are stored as numbers or as decimal texts; an empty text
stands for none.
-/

namespace IvrFlow.Counter

/-- Reads on over decimal digits. The first character that is no digit, or that carries the value
past the greatest counter, is the fault. -/
def readDigits (value : Nat) : List Char → Except Fault UInt32
  | [] => .ok value.toUInt32
  | c :: rest =>
    if c.isDigit then
      let next := 10 * value + (c.toNat - '0'.toNat)
      if next < UInt32.size then readDigits next rest else .error .tooLarge
    else .error .notDigits

/-- Reads a decimal number, before which a plus sign may stand. -/
def readDecimal : List Char → Except Fault UInt32
  | [] | ['+'] => .error .notDigits
  | '+' :: rest => readDigits 0 rest
  | text => readDigits 0 text

/-- Reads an optional counter. -/
def read : Json → Except Fault (Option UInt32)
  | .null => .ok none
  | .num (.natural value) =>
    if value.toNat < UInt32.size then .ok (some value.toUInt32) else .error .tooLarge
  | .str text =>
    match Text.trim text.toList with
    | [] => .ok none
    | c :: rest => do return some (← readDecimal (c :: rest))
  | _ => .error .notCounter

/-- A counter is written as a number. -/
def write (value : UInt32) : Json := .num (.natural value.toUInt64)

end IvrFlow.Counter
