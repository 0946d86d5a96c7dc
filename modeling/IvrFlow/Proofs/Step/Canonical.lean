import IvrFlow.Proofs.Step.Format
import Mathlib.Data.List.Forall2

/-!
What canonical forms show of steps. `Step.Shown` says, for a step and each step within it, what its
stored object has to have: the words of its kind and header, the entries of those of its fields that
hold something and no others, and of each choice the branch that is chosen. Whatever a step holds,
its canonical form shows it so, and is formatted (`wellFormed_canonical`).
-/

namespace IvrFlow

/-! ### Entries that are there -/

/-- Entries have one under each of some keys exactly when something is said to be there. -/
def Present (presence : List (String × Bool)) (entries : Fields) : Prop :=
  ∀ pair ∈ presence, (entries.lookup pair.1).isSome = pair.2

/-- A field has an entry exactly when it writes something. -/
theorem present_writeFields {α : Type} {fields : List (Field α)} (inOrder : InOrder fields)
    (record : α) :
    Present (fields.map fun field => (field.name, (field.write record).isSome))
      (writeFields fields record) := by
  intro pair member
  obtain ⟨field, isField, rfl⟩ := List.mem_map.mp member
  rw [lookup_writeFields inOrder isField]

theorem Present.insert {presence : List (String × Bool)} {entries : Fields}
    (present : Present presence entries) {key : String} (value : Json)
    (other : key ∉ presence.map Prod.fst) : Present presence (entries.insert key value) := by
  intro pair member
  have different : pair.1 ≠ key := fun same => other (same ▸ List.mem_map_of_mem member)
  simpa [different] using present pair member

theorem Present.entries {presence : List (String × Bool)} {own : Fields}
    (present : Present presence own) (kind : StepKind) (header : Header)
    (others : ∀ key ∈ presence.map Prod.fst, key ∉ Header.keys) :
    Present presence (header.entries kind own) := by
  intro pair member
  have other := others pair.1 (List.mem_map_of_mem member)
  simpa only [Header.lookup_entries_of_notMem other] using present pair member

/-! ### Headers -/

/-- What an object shows of a header and of a kind: their words, a label, and what the editor keeps,
which is an object. -/
structure Header.Shown (kind : StepKind) (header : Header) (entries : Fields) : Prop where
  word : entries.lookup "kind" = some (.str kind.word)
  name : entries.lookup "name" = some (.str header.name)
  title : entries.lookup "title" = some (.str kind.title)
  label : ∃ label, label ≠ "" ∧ entries.lookup "label" = some (.str label)
  iface : ∃ kept, entries.lookup "iface" = some (.obj kept)

namespace Header

/-- A header shows the title and the label that it holds, which are right once it is normalized. -/
theorem shown_entries (kind : StepKind) (header : Header) (own : Fields) :
    header.Shown kind ((header.normalize kind).entries kind own) := by
  have normal := header.normal_normalize kind
  obtain ⟨kept, iface⟩ := Json.isObject_iff.mp normal.iface
  exact {
    word := by simp [entries]
    name := by simp [entries, addTo, normalize]
    title := by simp [entries, addTo, normal.title]
    label := ⟨_, normal.label, by simp [entries, addTo]⟩
    iface := ⟨kept, by simp [entries, addTo, iface]⟩ }

end Header

/-! ### Actions -/

/-- The own entries of speech. A voice or language that is empty counts as none. -/
def Say.presence (say : Say) : List (String × Bool) :=
  [("language", (unlessEmpty say.language).isSome), ("loop", say.repeats.isSome), ("phrase", true),
    ("voice", (unlessEmpty say.voice).isSome)]

/-- The own entries of audio. Of its sources the chosen one is there, even if it is blank. -/
def Play.presence (play : Play) : List (String × Bool) :=
  [("local", play.source == .local), ("loop", play.repeats.isSome), ("playType", true),
    ("remote", play.source == .remote)]

/-- The own entries of a dial step. -/
def Dial.presence (dial : Dial) : List (String × Bool) :=
  [("action", dial.action.isSome), ("callerId", dial.callerId.isSome),
    ("method", dial.method.isSome), ("nextModule", dial.nextModule.isSome),
    ("record", dial.record.isSome), ("timeLimit", dial.timeLimit.isSome),
    ("timeout", dial.timeout.isSome)]

/-- The own entries of a redirection. A method that is empty counts as none. -/
def Redirect.presence (redirect : Redirect) : List (String × Bool) :=
  [("method", (unlessEmpty redirect.method).isSome), ("url", redirect.url.isSome)]

/-- The own entries of an action. -/
def Action.presence : Action → List (String × Bool)
  | .say body => body.presence
  | .play body => body.presence
  | .dial body => body.presence
  | .redirect body => body.presence
  | .hangUp => []
  | .reject body => [("reason", body.reason.isSome)]
  | .pause body => [("length", body.length.isSome)]
  | .externalService _ =>
    [("doRouting", true), ("next", true), ("nextType", true), ("url", true),
      ("urlParameters", true)]

/-- The entries of a target besides its type. -/
def DialTarget.presence : DialTarget → List (String × Bool)
  | .number target =>
    [("beforeConnectModule", target.beforeConnectModule.isSome), ("destination", true),
      ("sendDigits", target.sendDigits.isSome)]
  | .client target =>
    [("beforeConnectModule", target.beforeConnectModule.isSome), ("destination", true)]
  | .conference target =>
    [("beep", target.beep.isSome), ("destination", true),
      ("endConferenceOnExit", target.endOnExit.isSome),
      ("maxParticipants", target.maxParticipants.isSome), ("muted", target.muted.isSome),
      ("nextModule", target.nextModule.isSome),
      ("startConferenceOnEnter", target.startOnEnter.isSome),
      ("waitMethod", target.waitMethod.isSome), ("waitModule", target.waitModule.isSome),
      ("waitUrl", target.waitUrl.isSome)]
  | .sipUri _ => [("destination", true)]

/-- What a stored target shows: its type and its entries. -/
def DialTarget.Shown (target : DialTarget) (stored : Json) : Prop :=
  ∃ entries, stored = .obj entries ∧ entries.lookup "dialType" = some (.str target.dialType.word) ∧
    Present target.presence entries

/-- What a stored hop shows: its kind, and the property or the position that it has. -/
def Hop.Shown (hop : Hop) (stored : Json) : Prop :=
  ∃ entries, stored = .obj entries ∧ entries.lookup "kind" = some (.str hop.kind.word) ∧
    Present [("position", hop.position.isSome), ("property", hop.property.isSome)] entries

/-- What a stored path shows: its hops. -/
def Path.Shown (path : Path) (stored : Json) : Prop :=
  ∃ entries hops, stored = .obj entries ∧ entries.lookup "operations" = some (.arr hops) ∧
    List.Forall₂ Hop.Shown path.hops hops

/-- What a stored assignment shows: its variable, where that lives, and its path. -/
def Assignment.Shown (assignment : Assignment) (stored : Json) : Prop :=
  ∃ entries path, stored = .obj entries ∧
    entries.lookup "destinationVariable" = some (.str assignment.destination) ∧
    entries.lookup "scope" = some (.str assignment.scope.word) ∧
    entries.lookup "valueExtractor" = some path ∧ assignment.path.Shown path

/-- What an object shows of an action besides its presence. -/
def Action.Shown : Action → Fields → Prop
  | .play body, entries => entries.lookup "playType" = some (.str body.source.word)
  | .dial body, entries => ∃ targets, entries.lookup "targets" = some (.arr targets) ∧
      List.Forall₂ DialTarget.Shown body.targets targets
  | .externalService body, entries => ∃ assignments path,
      entries.lookup "nextType" = some (.str body.nextType.word) ∧
      entries.lookup "assignments" = some (.arr assignments) ∧
      List.Forall₂ Assignment.Shown body.assignments assignments ∧
      entries.lookup "nextValueExtractor" = some path ∧ body.nextPath.Shown path
  | _, _ => True

/-! ### Gathering -/

/-- What a stored announcement shows. -/
def Announcement.Shown (announcement : Announcement) (stored : Json) : Prop :=
  ∃ entries, stored = .obj entries ∧ announcement.header.Shown .say entries ∧
    Present announcement.say.presence entries

/-- What a stored validation shows: a view of its pattern, and its announcement. -/
def Validation.Shown (validation : Validation) (stored : Json) : Prop :=
  ∃ entries view announcement, stored = .obj entries ∧
    entries.lookup "pattern" = some (.str validation.pattern) ∧
    entries.lookup "iface" = some (.obj view) ∧
    entries.lookup "messageStep" = some announcement ∧ validation.announcement.Shown announcement

/-- The own entries of a gather step. Of a menu and free input the one that the digits are taken for
is there, even if it is blank. -/
def Gather.presence (digits : Gather) : List (String × Bool) :=
  [("action", digits.action.isSome), ("collectDigits", digits.gatherType == .collectDigits),
    ("finishOnKey", digits.finishOnKey.isSome), ("gatherType", true),
    ("menu", digits.gatherType == .menu), ("method", true),
    ("numDigits", digits.numDigits.isSome), ("timeout", digits.timeout.isSome),
    ("validation", true)]

/-- What an object shows of a gather step besides its presence and its prompts. -/
def Gather.Shown (digits : Gather) (entries : Fields) : Prop :=
  entries.lookup "gatherType" = some (.str digits.gatherType.word) ∧
    ∃ validation, entries.lookup "validation" = some validation ∧
      digits.validation.Shown validation

/-- **What a stored value shows of a step**, at every depth. -/
inductive Step.Shown : Step → Json → Prop where
  | act {header : Header} {action : Action} {entries : Fields} :
      header.Shown action.kind entries → Present action.presence entries → action.Shown entries →
      Shown (.act header action) (.obj entries)
  | gather {header : Header} {digits : Gather} {prompts : List Step} {entries : Fields}
      {stored : List Json} :
      header.Shown .gather entries → Present digits.presence entries → digits.Shown entries →
      entries.lookup "steps" = some (.arr stored) → List.Forall₂ Shown prompts stored →
      Shown (.gather header digits prompts) (.obj entries)

/-! ### Which entries are written -/

section Presence

variable {α : Type} {fields : List (Field α)} {record : α} {presence : List (String × Bool)}

theorem Present.of_writes (inOrder : InOrder fields)
    (writes : presence = fields.map fun field => (field.name, (field.write record).isSome)) :
    Present presence (writeFields fields record) := by
  rw [writes]
  exact present_writeFields inOrder record

end Presence

theorem Say.present (say : Say) : Present say.presence (writeFields fields say.normalize) :=
  .of_writes (by decide) <| by
    simp [presence, fields, normalize, Field.of, Field.orNull, Field.counter, Field.optional]

/-- Normalizing puts the chosen source there, and pruning takes the other one away. -/
theorem Play.present (play : Play) :
    Present play.presence (writeFields fields play.normalize.prune) := by
  refine .of_writes (by decide) ?_
  obtain ⟨source, repeats, localAudio, remoteAudio⟩ := play
  cases source <;>
    simp [presence, fields, normalize, prune, Field.of, Field.orNull, Field.counter, Field.optional]

theorem Dial.present (dial : Dial) : Present dial.presence dial.entries := by
  have own : Present dial.presence (writeFields fields dial) :=
    .of_writes (by decide) <| by
      simp [presence, fields, Field.orNull, Field.counter, Field.optional]
  exact own.insert _ (by simp [presence])

theorem Redirect.present (redirect : Redirect) :
    Present redirect.presence (writeFields fields redirect.normalize) :=
  .of_writes (by decide) <| by
    simp [presence, fields, normalize, Field.orNull, Field.optional]

theorem Service.present (service : Service) :
    Present (Action.externalService service).presence service.entries := by
  have own : Present (Action.externalService service).presence (writeFields fields service) :=
    .of_writes (by decide) <| by simp [Action.presence, fields, Field.of]
  exact (own.insert _ (by simp [Action.presence])).insert _ (by simp [Action.presence])

theorem Action.present (action : Action) :
    Present action.presence action.normalize.prune.entries := by
  cases action with
  | say body => exact body.present
  | play body => exact body.present
  | dial body => exact body.present
  | redirect body => exact body.present
  | hangUp => exact fun _ member => nomatch member
  | reject body =>
    exact .of_writes (by decide) <| by
      simp [presence, Reject.fields, Field.orNull, Field.optional]
  | pause body =>
    exact .of_writes (by decide) <| by
      simp [presence, Pause.fields, Field.counter, Field.optional]
  | externalService body => exact body.present

theorem DialTarget.present (target : DialTarget) : Present target.presence target.entries := by
  cases target with
  | number target =>
    exact .of_writes (by decide) <| by
      simp [presence, NumberTarget.fields, Field.of, Field.orNull, Field.optional]
  | client target =>
    exact .of_writes (by decide) <| by
      simp [presence, ClientTarget.fields, Field.of, Field.orNull, Field.optional]
  | conference target =>
    exact .of_writes (by decide) <| by
      simp [presence, ConferenceTarget.fields, Field.of, Field.orNull, Field.counter,
        Field.optional]
  | sipUri target =>
    exact .of_writes (by decide) <| by simp [presence, SipTarget.fields, Field.of]

/-- Normalizing puts there what the digits are taken for, and pruning takes the other one away. -/
theorem Gather.present (digits : Gather) (prompts : List Json) :
    Present digits.presence (digits.normalize.prune.entries prompts) := by
  have own : Present digits.presence (writeFields fields digits.normalize.prune) := by
    refine .of_writes (by decide) ?_
    obtain ⟨_, _, _, _, _, _, gatherType, _, _⟩ := digits
    cases gatherType <;>
      simp [presence, fields, normalize, prune, Field.of, Field.orNull, Field.counter,
        Field.optional]
  exact own.insert _ (by simp [presence])

/-! ### What canonical forms show -/

theorem DialTarget.shown_toJson (target : DialTarget) : target.Shown target.toJson := by
  refine ⟨_, rfl, Fields.lookup_insert_self _ _ _, target.present.insert _ ?_⟩
  cases target <;> simp [presence]

theorem Hop.shown_write (hop : Hop) : hop.Shown (form.codec.write hop) := by
  have inOrder : InOrder form.fields := by decide
  refine ⟨writeFields form.fields hop, rfl,
    lookup_writeFields inOrder (List.getElem_mem (by decide : 0 < form.fields.length)), ?_⟩
  intro pair member
  refine present_writeFields inOrder hop pair ?_
  simp only [List.mem_cons, List.not_mem_nil, or_false] at member
  rcases member with rfl | rfl <;>
    simp [form, kindField, positionField, propertyField, Field.of, Field.orNull, Field.counter,
      Field.optional]

theorem Path.shown_toJson (path : Path) : path.Shown path.toJson := by
  refine ⟨_, path.hops.map Hop.form.codec.write, rfl, rfl, ?_⟩
  exact List.forall₂_map_right_iff.mpr (List.forall₂_same.mpr fun hop _ => hop.shown_write)

theorem Assignment.shown_toJson (assignment : Assignment) : assignment.Shown assignment.toJson := by
  have inOrder : InOrder form.fields := by decide
  refine ⟨_, assignment.path.toJson, rfl, ?_, ?_, Fields.lookup_insert_self _ _ _,
    assignment.path.shown_toJson⟩
  · rw [Fields.lookup_insert_of_ne _ _ (by decide)]
    exact lookup_writeFields inOrder (List.getElem_mem (by decide : 0 < form.fields.length))
  · rw [Fields.lookup_insert_of_ne _ _ (by decide)]
    exact lookup_writeFields inOrder (List.getElem_mem (by decide : 1 < form.fields.length))

theorem Action.shown_entries (action : Action) (kind : StepKind) (header : Header) :
    action.Shown (header.entries kind action.normalize.prune.entries) := by
  cases action with
  | play body =>
    have source : body.normalize.prune.source = body.source := by
      obtain ⟨source, repeats, localAudio, remoteAudio⟩ := body
      cases source <;> rfl
    show List.lookup "playType" _ = _
    rw [Header.lookup_entries_of_notMem (by decide), ← source]
    exact lookup_writeFields (by decide) (List.getElem_mem (by decide : 2 < Play.fields.length))
  | dial body =>
    refine ⟨body.targets.map DialTarget.toJson, ?_, ?_⟩
    · simp [entries, normalize, prune]
    · exact List.forall₂_map_right_iff.mpr
        (List.forall₂_same.mpr fun target _ => target.shown_toJson)
  | externalService body =>
    have nextType : (writeFields Service.fields body).lookup "nextType" =
        some (.str body.nextType.word) :=
      lookup_writeFields (by decide) (List.getElem_mem (by decide : 2 < Service.fields.length))
    refine ⟨body.assignments.map Assignment.toJson, body.nextPath.toJson, ?_, ?_, ?_, ?_,
      body.nextPath.shown_toJson⟩
    · simp [entries, normalize, prune, Service.entries, nextType]
    · simp [entries, normalize, prune]
    · exact List.forall₂_map_right_iff.mpr
        (List.forall₂_same.mpr fun assignment _ => assignment.shown_toJson)
    · simp [entries, normalize, prune]
  | say | redirect | hangUp | reject | pause => trivial

theorem Announcement.shown_canonical (announcement : Announcement) :
    announcement.Shown announcement.canonical :=
  ⟨_, rfl, announcement.header.shown_entries .say _,
    announcement.say.present.entries _ _ (by simp [Say.presence, Header.keys])⟩

theorem Validation.shown_write (validation : Validation) :
    validation.Shown (codec.write validation.normalize) := by
  have inOrder : InOrder form.fields := by decide
  refine ⟨_, writeFields PatternView.form.fields validation.reconciledView,
    validation.announcement.canonical, rfl, ?_, ?_, ?_, validation.announcement.shown_canonical⟩
  · rw [Fields.lookup_insert_of_ne _ _ (by decide)]
    exact lookup_writeFields inOrder (List.getElem_mem (by decide : 1 < form.fields.length))
  · rw [Fields.lookup_insert_of_ne _ _ (by decide)]
    exact lookup_writeFields inOrder (List.getElem_mem (by decide : 0 < form.fields.length))
  · rw [Fields.lookup_insert_self, normalize, Announcement.canonical_normalize]

theorem Gather.shown_entries (digits : Gather) (prompts : List Json) (header : Header) :
    digits.Shown (header.entries .gather (digits.normalize.prune.entries prompts)) := by
  have gatherType : digits.normalize.prune.gatherType = digits.gatherType := by
    obtain ⟨_, _, _, _, _, _, gatherType, _, _⟩ := digits
    cases gatherType <;> rfl
  refine ⟨?_, Validation.codec.write digits.validation.normalize, ?_,
    digits.validation.shown_write⟩
  · rw [Header.lookup_entries_of_notMem (by decide), entries,
      Fields.lookup_insert_of_ne _ _ (by decide), ← gatherType]
    exact lookup_writeFields (by decide) (List.getElem_mem (by decide : 3 < fields.length))
  · simp [normalize]

namespace Step

theorem shown_canonical (step : Step) : step.Shown step.canonical := by
  induction step using Step.induction with
  | act header action =>
    exact .act (header.shown_entries _ _)
      (action.present.entries _ _ (by cases action <;> simp [Action.presence, Say.presence,
        Play.presence, Dial.presence, Redirect.presence, Header.keys]))
      (action.shown_entries _ _)
  | gather header digits prompts ih =>
    exact .gather (header.shown_entries _ _)
      ((digits.present _).entries _ _ (by simp [Gather.presence, Header.keys]))
      (digits.shown_entries _ _) (get?_steps_canonical header digits prompts)
      (List.forall₂_map_right_iff.mpr (List.forall₂_same.mpr ih))

/-- **Canonical forms are well formed at every depth, whatever a step holds.** The canonical form
shows the step and each step in it, and is formatted but for the objects that the editor keeps. -/
theorem wellFormed_canonical (step : Step) :
    step.Shown step.canonical ∧ Formatted (fun kept => kept.isObject = true) step.canonical :=
  ⟨step.shown_canonical, formatted_canonical fun _ _ isObject => isObject⟩

end Step

end IvrFlow
