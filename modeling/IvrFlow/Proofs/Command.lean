import IvrFlow.Command
import IvrFlow.Proofs.Flow.Kept
import IvrFlow.Proofs.Step.Depth

/-!
What `canonical` prints, given to it again. The printed text is read back as the value that it
shows, and that is loaded as something with the same canonical form; so the text is printed again,
unless the value nests deeper than a document may (`canonical_twice`). Since a canonical form shows
more than what was stored, it can be too deep where the document is not
(`not_canonical_twice_nest`).
-/

namespace IvrFlow

theorem Vocabulary.keepsWords_withPolicy (policy : TargetPolicy) :
    (standard.withPolicy policy).KeepsWords :=
  keepsWords_standard

/-! ### Steps and flows -/

theorem Step.parse_eq_ok_iff {vocabulary : Vocabulary} {text : String} {step : Step} :
    parse vocabulary text = .ok step ↔
      ∃ stored, Json.parse text = .ok stored ∧ load vocabulary stored = .ok step := by
  unfold parse
  cases Json.parse text with
  | ok stored => simp only [Except.ok.injEq, exists_eq_left']
  | error error => simp only [reduceCtorEq, false_and, exists_false]

theorem Flow.parse_eq_ok_iff {vocabulary : Vocabulary} {text : String} {flow : Flow} :
    parse vocabulary text = .ok flow ↔
      ∃ stored, Json.parse text = .ok stored ∧ load vocabulary stored = .ok flow := by
  unfold parse
  cases Json.parse text with
  | ok stored => simp only [Except.ok.injEq, exists_eq_left']
  | error error => simp only [reduceCtorEq, false_and, exists_false]

/-- A text that is read as the canonical form of a loaded step is loaded as a step of that canonical
form. -/
theorem Step.parse_canonical {vocabulary : Vocabulary} (keeps : vocabulary.KeepsWords)
    {document text : String} {step : Step} (loaded : parse vocabulary document = .ok step)
    (read : Json.parse text = .ok step.canonical) :
    parse vocabulary text = .ok step.normalForm := by
  obtain ⟨stored, _, loadedStored⟩ := parse_eq_ok_iff.mp loaded
  have reachable := reachable_of_load loadedStored
  exact parse_eq_ok_iff.mpr ⟨step.canonical, read,
    load_canonical_of_sound keeps step fun path isPath => (reachable path isPath).sound⟩

theorem Flow.parse_canonical {vocabulary : Vocabulary} (keeps : vocabulary.KeepsWords)
    {document text : String} {flow : Flow} (loaded : parse vocabulary document = .ok flow)
    (read : Json.parse text = .ok flow.canonical) :
    parse vocabulary text = .ok flow.normalForm := by
  obtain ⟨stored, _, loadedStored⟩ := parse_eq_ok_iff.mp loaded
  have again := load_canonical keeps (reachable_of_load loadedStored)
  rw [firstRepeated_stepNames (nodup_stepNames_of_load loadedStored)] at again
  exact parse_eq_ok_iff.mpr ⟨flow.canonical, read, again⟩

/-! ### Printed values -/

namespace Invocation

/-- The value whose text an invocation of `canonical` prints for a document. -/
def canonicalValue? (invocation : Invocation) (document : String) : Option Json :=
  match invocation.command with
  | .check _ => none
  | .canonical _ false => (Flow.parse invocation.vocabulary document).toOption.map Flow.canonical
  | .canonical _ true => (Step.parse invocation.vocabulary document).toOption.map Step.canonical

/-- The outcome for a text that is no document: it has no flow in it, or no single step. -/
def unread (single : Bool) (error : Json.SyntaxError) : Outcome :=
  if single then .failure ("Failed to load step: " ++ (StepError.notJson error).message)
  else .failure ("Failed to load flow: " ++ (FlowError.notJson error).message)

section Canonical

variable {invocation : Invocation} {path : String} {single : Bool}
  {elapsed document text printed : String} {value : Json}

theorem runOn_eq_success_iff (asked : invocation.command = .canonical path single) :
    invocation.runOn elapsed document = .success printed ↔
      ∃ value, invocation.canonicalValue? document = some value ∧
        printed = value.prettyText ++ "\n" := by
  have succeeds : ∀ {other : String},
      Outcome.success other = .success printed ↔ printed = other := by
    intro other
    simp only [Outcome.success, Outcome.mk.injEq, true_and, and_true, eq_comm]
  have fails : ∀ {message : String}, ¬ Outcome.failure message = .success printed := by
    intro message same
    cases congrArg Outcome.exit same
  cases single with
  | true =>
    simp only [runOn, canonicalValue?, asked]
    cases Step.parse invocation.vocabulary document with
    | ok step => simp only [succeeds, Except.toOption, Option.map_some, Option.some.injEq,
        exists_eq_left']
    | error error => simp only [fails, Except.toOption, Option.map_none, reduceCtorEq, false_and,
        exists_false]
  | false =>
    simp only [runOn, canonicalValue?, asked]
    cases Flow.parse invocation.vocabulary document with
    | ok step => simp only [succeeds, Except.toOption, Option.map_some, Option.some.injEq,
        exists_eq_left']
    | error error => simp only [fails, Except.toOption, Option.map_none, reduceCtorEq, false_and,
        exists_false]

theorem runOn_of_parse_eq_error (asked : invocation.command = .canonical path single)
    {error : Json.SyntaxError} (refused : Json.parse document = .error error) :
    invocation.runOn elapsed document = unread single error := by
  cases single with
  | true => simp only [runOn, asked, Step.parse, refused, unread, if_true]
  | false => simp only [runOn, asked, Flow.parse, refused, unread, Bool.false_eq_true, if_false]

/-- What is granted and holds throughout a document holds throughout the value printed for it. -/
theorem exists_throughout_of_canonicalValue?
    (isValue : invocation.canonicalValue? document = some value) :
    ∃ stored, Json.parse document = .ok stored ∧
      ∀ {property : Json → Prop}, Json.Granted property →
        stored.Throughout property → value.Throughout property := by
  unfold canonicalValue? at isValue
  split at isValue
  · cases isValue
  · obtain ⟨flow, loaded, rfl⟩ := Option.map_eq_some_iff.mp isValue
    obtain ⟨stored, read, loadedStored⟩ := Flow.parse_eq_ok_iff.mp (toOption_eq_some_iff.mp loaded)
    exact ⟨stored, read, fun granted throughout =>
      Flow.throughout_canonical_of_load granted throughout loadedStored⟩
  · obtain ⟨step, loaded, rfl⟩ := Option.map_eq_some_iff.mp isValue
    obtain ⟨stored, read, loadedStored⟩ := Step.parse_eq_ok_iff.mp (toOption_eq_some_iff.mp loaded)
    exact ⟨stored, read, fun granted throughout =>
      Step.throughout_canonical_of_load granted throughout loadedStored⟩

theorem canonicalValue?_of_load (asked : invocation.command = .canonical path true) {stored : Json}
    {step : Step} (read : Json.parse document = .ok stored)
    (loaded : Step.load invocation.vocabulary stored = .ok step) :
    invocation.canonicalValue? document = some step.canonical := by
  have parsed := Step.parse_eq_ok_iff.mpr ⟨stored, read, loaded⟩
  simp only [canonicalValue?, asked, parsed, Except.toOption, Option.map_some]

/-- Any text of a printed value is printed as that value. -/
theorem canonicalValue?_of_parse (isValue : invocation.canonicalValue? document = some value)
    (read : Json.parse text = .ok value) : invocation.canonicalValue? text = some value := by
  have keeps : invocation.vocabulary.KeepsWords := Vocabulary.keepsWords_withPolicy _
  unfold canonicalValue? at isValue ⊢
  split at isValue
  · cases isValue
  · obtain ⟨flow, loaded, rfl⟩ := Option.map_eq_some_iff.mp isValue
    have again := Flow.parse_canonical keeps (toOption_eq_some_iff.mp loaded) read
    simp only [again, Except.toOption, Option.map_some, Flow.canonical_normalForm]
  · obtain ⟨step, loaded, rfl⟩ := Option.map_eq_some_iff.mp isValue
    have again := Step.parse_canonical keeps (toOption_eq_some_iff.mp loaded) read
    simp only [again, Except.toOption, Option.map_some, Step.canonical_normalForm]

/-- The text of a printed value is printed again, or it is too deep to be read. -/
theorem runOn_prettyText (asked : invocation.command = .canonical path single)
    (isValue : invocation.canonicalValue? document = some value) (legible : value.Legible) :
    (value.depth ≤ Json.nestingLimit → invocation.runOn elapsed (value.prettyText ++ "\n") =
      .success (value.prettyText ++ "\n")) ∧
    (Json.nestingLimit < value.depth → ∃ error : Json.SyntaxError, error.problem = .tooDeep ∧
      invocation.runOn elapsed (value.prettyText ++ "\n") = unread single error) := by
  obtain ⟨stored, read, takenOver⟩ := exists_throughout_of_canonicalValue? isValue
  have ordered : value.Ordered := takenOver Json.granted_ordered (Json.ordered_of_parse read)
  obtain ⟨readBack, refused⟩ := Json.parse_prettyText ordered legible
  constructor
  · intro fits
    exact (runOn_eq_success_iff asked).mpr
      ⟨value, canonicalValue?_of_parse isValue (readBack fits), rfl⟩
  · intro deep
    obtain ⟨error, isError, tooDeep⟩ := refused deep
    exact ⟨error, tooDeep, runOn_of_parse_eq_error asked isError⟩

/-- **What `canonical` prints, it prints again**, unless that is too deep to be read. Of the real
numbers in the printed value, which are those of the document, it is taken for granted that they are
read back from their own texts; all else is. -/
theorem canonical_twice (asked : invocation.command = .canonical path single)
    (prints : invocation.runOn elapsed document = .success printed) :
    ∃ stored value, Json.parse document = .ok stored ∧
      invocation.canonicalValue? document = some value ∧ printed = value.prettyText ++ "\n" ∧
      (stored.Legible → value.Legible) ∧
      (value.Legible → ∀ later,
        (value.depth ≤ Json.nestingLimit → invocation.runOn later printed = .success printed) ∧
          (Json.nestingLimit < value.depth → ∃ error : Json.SyntaxError, error.problem = .tooDeep ∧
            invocation.runOn later printed = unread single error)) := by
  obtain ⟨value, isValue, rfl⟩ := (runOn_eq_success_iff asked).mp prints
  obtain ⟨stored, read, takenOver⟩ := exists_throughout_of_canonicalValue? isValue
  refine ⟨stored, value, read, isValue, rfl, takenOver Json.granted_legible, ?_⟩
  intro legible later
  exact runOn_prettyText asked isValue legible

end Canonical

/-- A gather step whose prompt has a real number in its editor data is printed twice. -/
theorem canonical_twice_volume :
    let invocation : Invocation := ⟨.canonical "step.json" true, false⟩
    let volume : Json := .num (.real ⟨false, ⟨0x3FE0000000000000, by decide⟩⟩)
    let prompt : Json := .obj [("iface", .obj [("volume", volume)]), ("kind", .str "pause")]
    let stored : Json := .obj [("kind", .str "gather"), ("steps", .arr [prompt])]
    ∃ printed, invocation.runOn "" (stored.prettyText ++ "\n") = .success printed ∧
      invocation.runOn "" printed = .success printed := by
  intro invocation volume prompt stored
  have throughout : ∀ {property : Json → Prop}, Json.Granted property →
      volume.Throughout property → stored.Throughout property := by
    intro property granted inVolume
    have kept : (Json.obj [("volume", volume)]).Throughout property :=
      granted.obj (List.pairwise_singleton _ _) (List.forall_mem_singleton.mpr inVolume)
    have inPrompt : prompt.Throughout property :=
      granted.obj (List.pairwise_pair.mpr (by decide : "iface" < "kind"))
        (List.forall_mem_cons.mpr ⟨kept, List.forall_mem_singleton.mpr (granted.str "pause")⟩)
    have prompts : (Json.arr [prompt]).Throughout property :=
      granted.arr (List.forall_mem_singleton.mpr inPrompt)
    exact granted.obj (List.pairwise_pair.mpr (by decide : "kind" < "steps"))
      (List.forall_mem_cons.mpr ⟨granted.str "gather", List.forall_mem_singleton.mpr prompts⟩)
  have ordered : stored.Ordered := throughout Json.granted_ordered
    (Json.ordered_of_no_parts rfl fun _ => Json.noConfusion)
  have legible : stored.Legible := by
    refine throughout Json.granted_legible (.intro (fun real isReal => ?_) fun _ isPart => ?_)
    · rw [← Json.num.inj isReal]
      decide +kernel
    · cases isPart
  have asked : invocation.command = .canonical "step.json" true := rfl
  have read := (Json.parse_prettyText ordered legible).1 (by decide)
  obtain ⟨step, loaded, fits⟩ : ∃ step, Step.load invocation.vocabulary stored = .ok step ∧
      step.canonical.depth ≤ Json.nestingLimit :=
    ⟨_, rfl, by decide⟩
  have isValue := canonicalValue?_of_load asked read loaded
  have prints : invocation.runOn "" (stored.prettyText ++ "\n") =
      .success (step.canonical.prettyText ++ "\n") :=
    (runOn_eq_success_iff asked).mpr ⟨_, isValue, rfl⟩
  obtain ⟨_, _, readFirst, isFirst, _, takenOver, again⟩ := canonical_twice asked prints
  cases readFirst.symm.trans read
  cases isFirst.symm.trans isValue
  exact ⟨_, prints, (again (takenOver legible) "").1 fits⟩

/-- Gather steps in each other are printed too deep to be read, though they have been read. -/
theorem not_canonical_twice_nest :
    let invocation : Invocation := ⟨.canonical "step.json" true, false⟩
    ∃ printed, invocation.runOn "" ((Step.storedNest 62).prettyText ++ "\n") = .success printed ∧
      ∀ again, invocation.runOn "" printed ≠ .success again := by
  intro invocation
  have asked : invocation.command = .canonical "step.json" true := rfl
  have ordered : (Step.storedNest 62).Ordered := Step.throughout_storedNest Json.granted_ordered 62
  have legible : (Step.storedNest 62).Legible := Step.throughout_storedNest Json.granted_legible 62
  have loaded := Step.load_storedNest .drop 62
  have fits : (Step.storedNest 62).depth ≤ Json.nestingLimit := by
    rw [Step.depth_storedNest]
    decide
  have isValue :=
    canonicalValue?_of_load asked ((Json.parse_prettyText ordered legible).1 fits) loaded
  refine ⟨_, (runOn_eq_success_iff asked).mpr ⟨_, isValue, rfl⟩, ?_⟩
  intro again succeeds
  have deep : Json.nestingLimit < (Step.nest 62).canonical.depth :=
    Nat.lt_of_lt_of_le (by decide) (Step.le_depth_canonical_nest 62)
  have printedLegible : (Step.nest 62).canonical.Legible :=
    Step.throughout_canonical_of_load Json.granted_legible legible loaded
  obtain ⟨_, _, refused⟩ := (runOn_prettyText asked isValue printedLegible).2 deep
  rw [refused] at succeeds
  cases congrArg Outcome.exit succeeds

end Invocation

end IvrFlow
