import IvrFlow.Command

/-!
The command line: reads the file that an invocation names, and prints the outcome.
-/

namespace IvrFlow

/-- A number of nanoseconds in the largest unit of which it is at least one, without trailing
zeros. -/
def elapsedText (nanoseconds : Nat) : String :=
  let (unit, name) :=
    if 1000000000 ≤ nanoseconds then (1000000000, "s")
    else if 1000000 ≤ nanoseconds then (1000000, "ms")
    else if 1000 ≤ nanoseconds then (1000, "µs")
    else (1, "ns")
  let places := (Nat.toDigits 10 (unit + nanoseconds % unit)).drop 1
  let shown := (places.reverse.dropWhile (· == '0')).reverse
  toString (nanoseconds / unit) ++
    (if shown.isEmpty then "" else "." ++ String.ofList shown) ++ name

/-- The content of a file, or why it cannot be read. -/
def readDocument (path : String) : IO (Except ReadError String) := do
  try
    let bytes ← IO.FS.readBinFile path
    match String.fromUTF8? bytes with
    | some content => return .ok content
    | none => return .error .notText
  catch
    | .noFileOrDirectory _ _ _ => return .error .missing
    | .inappropriateType none _ _ => return .error .directory
    | .inappropriateType (some _) _ _ => return .error .notDirectory
    | .invalidArgument (some _) _ _ => return .error .nameTooLong
    | error => return .error (.other (toString error))

/-- Runs an invocation on the file that it names. A first run only takes the time, which covers the
loading too. -/
def runOnFile (invocation : Invocation) : IO Outcome := do
  let start ← IO.monoNanosNow
  let content ← readDocument invocation.path
  let first := invocation.run "" content
  if first.exit = 0 then
    let stop ← IO.monoNanosNow
    return invocation.run (elapsedText (stop - start)) content
  else return first

end IvrFlow

def main (arguments : List String) : IO UInt32 := do
  let outcome ←
    match IvrFlow.Invocation.ofArguments? arguments with
    | some invocation => IvrFlow.runOnFile invocation
    | none => pure IvrFlow.Outcome.usage
  IO.print outcome.stdout
  IO.eprint outcome.stderr
  return outcome.exit
