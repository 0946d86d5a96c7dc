import IvrFlow.Flow.Edit
import IvrFlow.Main
import IvrFlow.Path.Edit
import IvrFlow.StepNames.Call
import IvrFlow.Proofs.Json.Entries
import IvrFlow.Proofs.Record.Reading
import IvrFlow.Proofs.Path.Invariant
import IvrFlow.Proofs.Path.RoundTrip
import IvrFlow.Proofs.Path.Representation
import IvrFlow.Proofs.Path.Legality
import IvrFlow.Proofs.Path.Undo
import IvrFlow.Proofs.Path.Refusal
import IvrFlow.Proofs.Step.NormalForm
import IvrFlow.Proofs.Step.Reading
import IvrFlow.Proofs.Step.RoundTrip
import IvrFlow.Proofs.Flow.Addition
import IvrFlow.Proofs.Flow.Names
import IvrFlow.Proofs.Record.Frame
import IvrFlow.Proofs.Step.Loading
import IvrFlow.Proofs.Flow.RoundTrip
import IvrFlow.Proofs.Flow.Lookup
import IvrFlow.Proofs.Flow.Session
import IvrFlow.Proofs.Step.Format
import IvrFlow.Proofs.Step.Canonical
import IvrFlow.Proofs.Json.Numerals
import IvrFlow.Proofs.Json.Sequences
import IvrFlow.Proofs.Json.Documents
import IvrFlow.Proofs.Step.Kept
import IvrFlow.Proofs.Step.Depth
import IvrFlow.Proofs.Flow.Kept
import IvrFlow.Proofs.Command
import IvrFlow.Proofs.Flow.Issuing
import IvrFlow.Proofs.Step.Prompts
import IvrFlow.Proofs.Step.Normalizing
import IvrFlow.Proofs.Flow.Stored
import IvrFlow.Proofs.Step.Policies
import IvrFlow.Proofs.Record.Shape
import IvrFlow.Proofs.Record.Counter
import IvrFlow.Proofs.Record.Slots
import IvrFlow.Proofs.Path.Positions
import IvrFlow.Proofs.Step.Targets
import IvrFlow.Proofs.Step.Places
import IvrFlow.Proofs.Step.Counters
import IvrFlow.Proofs.Flow.Policies
import IvrFlow.Proofs.Step.Lists
import IvrFlow.Proofs.Flow.Lists
import IvrFlow.Proofs.Json.Changes
import IvrFlow.Proofs.Record.Entries
import IvrFlow.Proofs.Step.Entries
import IvrFlow.Proofs.Step.Absence
import IvrFlow.Proofs.Step.Spelling
import IvrFlow.Proofs.Vocabulary
import IvrFlow.Proofs.Step.Elements
import IvrFlow.Proofs.Flow.Elements
import IvrFlow.Proofs.Report
import IvrFlow.Proofs.Step.Choice
import IvrFlow.Proofs.Step.Pattern
import IvrFlow.Proofs.Step.Routing
import IvrFlow.Proofs.Step.EditorData
import IvrFlow.Proofs.Step.Unread
import IvrFlow.Proofs.StepNames.Sequence
