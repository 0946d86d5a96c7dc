import IvrFlow.Flow.Load
import IvrFlow.Report

/-!
The commands of the program: `check` reports on a stored flow, and `canonical` prints a stored flow
or step in its canonical form. What they read and how long it took come from outside.
-/

namespace IvrFlow

/-- What is asked for. -/
inductive Command where
  | check (path : String)
  | canonical (path : String) (singleStep : Bool)
deriving DecidableEq

/-- A command, and whether dial targets of an unknown type are refused. -/
structure Invocation where
  command : Command
  strictTargets : Bool
deriving DecidableEq

/-- Why a file cannot be read. -/
inductive ReadError where
  | missing
  | directory
  | notDirectory
  | nameTooLong
  | notText
  | other (text : String)
deriving DecidableEq

/-- The wording of a read error. -/
def ReadError.message : ReadError → String
  | .missing => "No such file or directory (os error 2)"
  | .directory => "Is a directory (os error 21)"
  | .notDirectory => "Not a directory (os error 20)"
  | .nameTooLong => "File name too long (os error 36)"
  | .notText => "stream did not contain valid UTF-8"
  | .other text => text

/-- What a run of the program leaves behind. -/
structure Outcome where
  exit : UInt32
  stdout : String
  stderr : String
deriving DecidableEq

namespace Outcome

/-- A run that succeeds. -/
def success (stdout : String) : Outcome := ⟨0, stdout, ""⟩

/-- A run that fails. -/
def failure (message : String) : Outcome := ⟨1, "", "\nError: " ++ message ++ "\n"⟩

/-- A run with arguments that ask for nothing. -/
def usage : Outcome :=
  ⟨2, "", "Usage: ivrflow [--strict-targets] check PATH\n" ++
    "       ivrflow [--strict-targets] canonical [--step] PATH\n"⟩

end Outcome

namespace Invocation

/-- The option that asks for strict targets. -/
def strictOption : String := "--strict-targets"

/-- The option that asks for a single step. -/
def stepOption : String := "--step"

/-- The arguments of a command sorted into options and words; after `--` there are only words. -/
def sorted : List String → List String × List String
  | [] => ([], [])
  | argument :: rest =>
    if argument = "--" then ([], rest)
    else
      let (options, words) := sorted rest
      if argument.startsWith "-" && argument ≠ "-" then (argument :: options, words)
      else (options, argument :: words)

/-- The invocation that a command's name and arguments make. The options of a command may stand
before and after its path, but each only once. -/
def ofCommand? (name : String) (arguments : List String) : Option Invocation :=
  let (options, words) := sorted arguments
  let strict := options.contains strictOption
  let others := options.erase strictOption
  match words with
  | [path] =>
    if name = "check" ∧ others = [] then some ⟨.check path, strict⟩
    else if name = "canonical" ∧ others = [] then some ⟨.canonical path false, strict⟩
    else if name = "canonical" ∧ others = [stepOption] then some ⟨.canonical path true, strict⟩
    else none
  | _ => none

/-- The invocation that arguments make: the name of a command and its arguments. Strict targets may
also be asked for once in front of the name, whether the command asks for them again or not. -/
def ofArguments? : List String → Option Invocation
  | [] => none
  | first :: rest =>
    if first = strictOption then
      match rest with
      | [] => none
      | name :: arguments => (ofCommand? name arguments).map ({ · with strictTargets := true })
    else ofCommand? first rest

/-- The path that an invocation reads. -/
def path (invocation : Invocation) : String :=
  match invocation.command with
  | .check path => path
  | .canonical path _ => path

/-- The vocabulary that an invocation loads with. -/
def vocabulary (invocation : Invocation) : Vocabulary :=
  Vocabulary.standard.withPolicy (if invocation.strictTargets then .fail else .drop)

/-- The outcome for a document. -/
def runOn (invocation : Invocation) (elapsed document : String) : Outcome :=
  match invocation.command with
  | .check path =>
    match Flow.parse invocation.vocabulary document with
    | .ok flow => .success (Report.text path elapsed flow)
    | .error error => .failure ("Failed to load flow: " ++ error.message)
  | .canonical _ false =>
    match Flow.parse invocation.vocabulary document with
    | .ok flow => .success (flow.canonical.prettyText ++ "\n")
    | .error error => .failure ("Failed to load flow: " ++ error.message)
  | .canonical _ true =>
    match Step.parse invocation.vocabulary document with
    | .ok step => .success (step.canonical.prettyText ++ "\n")
    | .error error => .failure ("Failed to load step: " ++ error.message)

/-- The outcome for what reading the path gives. -/
def run (invocation : Invocation) (elapsed : String) (content : Except ReadError String) :
    Outcome :=
  match content with
  | .ok document => invocation.runOn elapsed document
  | .error error =>
    .failure ("Failed to read '" ++ invocation.path ++ "': " ++ error.message)

end Invocation

end IvrFlow
