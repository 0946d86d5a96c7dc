import IvrFlow.Proofs.Step.Entries
import IvrFlow.Proofs.Step.Places
import IvrFlow.Proofs.Step.Targets

/-!
Counters in stored steps. A stored step answers with the counter that is stored in any one of its
places (`Step.answers_load`). So a number and its text make the same step or are both refused, and
there is one outcome for all ways to leave a counter unset (`Step.counters_read_alike`).
-/

namespace IvrFlow

open IvrFlow.Field (sets_of sets_orNull sets_counter)

/-! ### Counters among fields -/

theorem Say.ownsCounter_repeats : OwnsCounter fields "loop" repeatsSlot .new where
  owns := .other sets_orNull rfl rfl <| .self sets_counter rfl rfl <| .other sets_of rfl rfl <|
    .other sets_orNull rfl rfl .nil
  taken := rfl
  again _ _ _ := rfl
  absent := rfl

theorem Play.ownsCounter_repeats : OwnsCounter fields "loop" repeatsSlot .new where
  owns := .other sets_orNull rfl rfl <| .self sets_counter rfl rfl <| .other sets_of rfl rfl <|
    .other sets_orNull rfl rfl .nil
  taken := rfl
  again _ _ _ := rfl
  absent := rfl

theorem Pause.ownsCounter_length : OwnsCounter fields "length" lengthSlot .new where
  owns := .self sets_counter rfl rfl .nil
  taken := rfl
  again _ _ _ := rfl
  absent := rfl

theorem Dial.ownsCounter_timeLimit : OwnsCounter fields "timeLimit" timeLimitSlot .new where
  owns := .other sets_orNull rfl rfl <| .other sets_orNull rfl rfl <| .other sets_orNull rfl rfl <|
    .other sets_orNull rfl rfl <| .other sets_orNull rfl rfl <| .self sets_counter rfl rfl <|
    .other sets_counter rfl rfl .nil
  taken := rfl
  again _ _ _ := rfl
  absent := rfl

theorem Dial.ownsCounter_timeout : OwnsCounter fields "timeout" timeoutSlot .new where
  owns := .other sets_orNull rfl rfl <| .other sets_orNull rfl rfl <| .other sets_orNull rfl rfl <|
    .other sets_orNull rfl rfl <| .other sets_orNull rfl rfl <| .other sets_counter rfl rfl <|
    .self sets_counter rfl rfl .nil
  taken := rfl
  again _ _ _ := rfl
  absent := rfl

theorem Gather.ownsCounter_numDigits : OwnsCounter fields "numDigits" numDigitsSlot .new where
  owns := .other sets_orNull rfl rfl <| .other sets_orNull rfl rfl <| .other sets_orNull rfl rfl <|
    .other sets_of rfl rfl <| .other sets_orNull rfl rfl <| .other sets_of rfl rfl <|
    .self sets_counter rfl rfl <| .other sets_counter rfl rfl <| .other sets_of rfl rfl .nil
  taken := rfl
  again _ _ _ := rfl
  absent := rfl

theorem Gather.ownsCounter_timeout : OwnsCounter fields "timeout" timeoutSlot .new where
  owns := .other sets_orNull rfl rfl <| .other sets_orNull rfl rfl <| .other sets_orNull rfl rfl <|
    .other sets_of rfl rfl <| .other sets_orNull rfl rfl <| .other sets_of rfl rfl <|
    .other sets_counter rfl rfl <| .self sets_counter rfl rfl <| .other sets_of rfl rfl .nil
  taken := rfl
  again _ _ _ := rfl
  absent := rfl

theorem ConferenceTarget.ownsCounter_maxParticipants :
    OwnsCounter fields "maxParticipants" maxParticipantsSlot .blank where
  owns := .other sets_orNull rfl rfl <| .other sets_of rfl rfl <| .other sets_orNull rfl rfl <|
    .self sets_counter rfl rfl <| .other sets_orNull rfl rfl <| .other sets_orNull rfl rfl <|
    .other sets_orNull rfl rfl <| .other sets_orNull rfl rfl <| .other sets_orNull rfl rfl <|
    .other sets_orNull rfl rfl .nil
  taken := rfl
  again _ _ _ := rfl
  absent := rfl

/-! ### Own fields -/

/-- What is given for a counter in a stored part. A path needs the positions of its hops. -/
def StoredPart.counter : StoredPart → Option Json → Except StepError (Option UInt32)
  | .path, given => Path.givenPosition given
  | part, given => part.locate (Counter.readOptional given)

namespace StoredPart

variable {part : StoredPart} {given : Option Json}

theorem counter_of_some {value : UInt32}
    (reads : Counter.readOptional given = .ok (some value)) :
    part.counter given = .ok (some value) := by
  cases part <;> simp only [counter, Path.givenPosition, reads] <;> rfl

theorem counter_of_none (reads : Counter.readOptional given = .ok none) :
    part.counter given =
      if part = .path then .error (.badPath .missingPosition) else .ok none := by
  cases part <;> simp only [counter, Path.givenPosition, reads] <;> rfl

theorem counter_of_error {fault : Fault} (refused : Counter.readOptional given = .error fault) :
    part.counter given = .error (.malformed part fault) := by
  cases part <;> simp only [counter, Path.givenPosition, refused] <;> rfl

end StoredPart

namespace Step

section Own

variable {α : Type} {kind : StepKind} {fields : List (Field α)} {name : String} {slot : Slot α}
  {blank : α} {before after : Fields} {held given : Option Json}

theorem answers_readStep (counts : OwnsCounter fields name slot blank)
    (always : ∀ value, slot.here value) (notHeader : known Header.fields name = false)
    (avoids : (before ++ after).Avoids [name]) :
    Answers slot.second ((StoredPart.step kind).counter given)
      (readStep kind fields blank (before.around after name held))
      (readStep kind fields blank (before.around after name given)) := by
  have header (stored : Option Json) :
      readFields Header.fields [] Header.blank (before.around after name stored) =
        readFields Header.fields [] Header.blank (before ++ after) := by
    cases stored with
    | none => rfl
    | some stored => exact readFields_middle_of_unknown notHeader
  rw [readStep, readStep, header, header]
  refine Answers.locate ?_ _
  refine (counts.answers avoids (fun value _ => always value) given).bind
    fun body result isHere reads => ?_
  obtain ⟨header, readHeader, isResult⟩ := bind_eq_ok_iff.mp reads
  cases isResult
  refine ⟨isHere, fun counter => ?_⟩
  rw [readHeader]
  rfl

theorem answers_loadPlain {body? : Action → Option α} {action : α → Action}
    {isForm : ∀ value body, body? value = some body ↔ value = action body}
    (counts : OwnsCounter fields name slot blank) (always : ∀ value, slot.here value)
    (notHeader : known Header.fields name = false) (avoids : (before ++ after).Avoids [name]) :
    Answers (inAction (slot.variant body? action isForm)) ((StoredPart.step kind).counter given)
      (loadPlain kind fields blank action (before.around after name held))
      (loadPlain kind fields blank action (before.around after name given)) := by
  refine (answers_readStep counts always notHeader avoids).bind
    fun read result isHere isResult => ?_
  cases isResult
  refine ⟨⟨_, rfl, Slot.variant_here isHere⟩, fun counter => ?_⟩
  show Except.ok (act read.1 (action (slot.set counter read.2))) =
    Except.ok (act read.1 ((slot.variant body? action isForm).set counter (action read.2)))
  rw [Slot.variant_set]

theorem answers_loadDial {policy : TargetPolicy} {slot : Slot Dial}
    (counts : OwnsCounter Dial.fields name slot .new) (always : ∀ value, slot.here value)
    (passes : ∀ counter dial targets, { slot.set counter dial with targets := targets } =
      slot.set counter { dial with targets := targets })
    (notHeader : known Header.fields name = false) (apart : name ∉ ["targets", "dialNouns"])
    (avoids : (before ++ after).Avoids [name]) :
    Answers (inAction (Action.dialSlot slot)) ((StoredPart.step .dial).counter given)
      (loadDial policy (before.around after name held))
      (loadDial policy (before.around after name given)) := by
  have targets (stored : Option Json) : Dial.storedTargets (before.around after name stored) =
      Dial.storedTargets (before ++ after) := by
    simp only [List.mem_cons, List.not_mem_nil, or_false, not_or] at apart
    rw [Dial.storedTargets, Fields.lookup_around (Ne.symm apart.1),
      Fields.lookup_around (Ne.symm apart.2), Dial.storedTargets]
  rw [loadDial, loadDial, targets, targets]
  refine (answers_readStep counts always notHeader avoids).bind
    fun read result isHere isResult => ?_
  obtain ⟨targets, loaded, isResult⟩ := bind_eq_ok_iff.mp isResult
  cases isResult
  refine ⟨⟨_, rfl, _, rfl, always _⟩, fun counter => ?_⟩
  show (DialTarget.loadAll policy read.1.name _ >>= _) = _
  rw [loaded]
  exact congrArg (fun dial => Except.ok (act read.1 (.dial dial))) (passes counter read.2 targets)

theorem answers_loadGather {slot : Slot Gather}
    (counts : OwnsCounter Gather.fields name slot .new) (always : ∀ value, slot.here value)
    (keeps : ∀ counter digits, (slot.set counter digits).validation = digits.validation)
    (passes : ∀ counter digits validation,
      { slot.set counter digits with validation := validation } =
        slot.set counter { digits with validation := validation })
    (notHeader : known Header.fields name = false) (apart : "validation" ≠ name)
    (avoids : (before ++ after).Avoids [name]) :
    Answers slot.second ((StoredPart.step .gather).counter given)
      (loadGather (before.around after name held))
      (loadGather (before.around after name given)) := by
  have announced (stored : Option Json) (digits : Gather) :
      digits.loadAnnouncement (before.around after name stored) =
        digits.loadAnnouncement (before ++ after) := by
    rw [Gather.loadAnnouncement, Fields.lookup_around apart, Gather.loadAnnouncement]
  rw [loadGather, loadGather]
  simp only [announced]
  refine (answers_readStep counts always notHeader avoids).bind
    fun read result isHere isResult => ?_
  obtain ⟨digits, loaded, isResult⟩ := bind_eq_ok_iff.mp isResult
  cases isResult
  refine ⟨always _, fun counter => ?_⟩
  -- The announcement is loaded into what has been read, after the counter.
  show ((slot.set counter read.2).loadAnnouncement (before ++ after) >>= _) = _
  rw [loadAnnouncement_map _ (keeps counter) (passes counter), loaded]
  rfl

theorem answers_loadOwn_gather {vocabulary : Vocabulary} {entries others : Fields}
    {slot : Slot Gather} {given : Except StepError (Option UInt32)}
    (answers : Answers slot.second given (loadGather entries) (loadGather others))
    (same : (Json.obj entries).storedSteps = (Json.obj others).storedSteps) :
    Answers (inDigits slot) given (loadOwn vocabulary entries .gather)
      (loadOwn vocabulary others .gather) := by
  rw [loadOwn, loadOwn, same]
  refine answers.bind fun gather result isHere isResult => ?_
  obtain ⟨prompts, loaded, isResult⟩ := bind_eq_ok_iff.mp isResult
  cases isResult
  refine ⟨⟨_, rfl, isHere⟩, fun counter => ?_⟩
  show (List.mapM (load vocabulary) _ >>= _) = _
  rw [loaded]
  rfl

theorem answers_loadOwn {vocabulary : Vocabulary} {counter : OwnCounter}
    (avoids : (before ++ after).Avoids [counter.key]) :
    Answers (ownSlot counter) ((StoredPart.step counter.kind).counter given)
      (loadOwn vocabulary (before.around after counter.key held) counter.kind)
      (loadOwn vocabulary (before.around after counter.key given) counter.kind) := by
  have steps {key : String} (different : "steps" ≠ key) :
      (Json.obj (before.around after key held)).storedSteps =
        (Json.obj (before.around after key given)).storedSteps := by
    rw [Json.storedSteps, Json.storedSteps, Json.get?, Json.get?, Fields.lookup_around different,
      Fields.lookup_around different]
  cases counter with
  | sayLoop =>
    exact answers_loadPlain Say.ownsCounter_repeats (fun _ => trivial) (by decide) avoids
  | playLoop =>
    exact answers_loadPlain Play.ownsCounter_repeats (fun _ => trivial) (by decide) avoids
  | pauseLength =>
    exact answers_loadPlain Pause.ownsCounter_length (fun _ => trivial) (by decide) avoids
  | timeLimit =>
    exact answers_loadDial Dial.ownsCounter_timeLimit (fun _ => trivial) (fun _ _ _ => rfl)
      (by decide) (by decide) avoids
  | dialTimeout =>
    exact answers_loadDial Dial.ownsCounter_timeout (fun _ => trivial) (fun _ _ _ => rfl)
      (by decide) (by decide) avoids
  | numDigits =>
    exact answers_loadOwn_gather (answers_loadGather Gather.ownsCounter_numDigits
      (fun _ => trivial) (fun _ _ => rfl) (fun _ _ _ => rfl) (by decide) (by decide) avoids)
      (steps (by decide))
  | gatherTimeout =>
    exact answers_loadOwn_gather (answers_loadGather Gather.ownsCounter_timeout
      (fun _ => trivial) (fun _ _ => rfl) (fun _ _ _ => rfl) (by decide) (by decide) avoids)
      (steps (by decide))

end Own

end Step

/-! ### Announcements and targets -/

theorem Announcement.answers_load {given : Option Json} {stored other : Json}
    (put : Json.Put "loop" given stored other) :
    Answers repeatsSlot ((StoredPart.step .say).counter given) (load stored) (load other) := by
  obtain @⟨before, after, held, avoids⟩ := put
  rw [load, load]
  refine (Step.answers_readStep Say.ownsCounter_repeats (fun _ => trivial) (by decide) avoids).bind
    fun read result _ isResult => ?_
  cases isResult
  exact ⟨trivial, fun counter => rfl⟩

namespace DialTarget

/-- A room that is stored with another number of callers is still stored as a room. -/
theorem Tagged.put {given : Option Json} {entries : Fields} {stored other : Json}
    (tagged : Tagged .conference entries stored)
    (put : Json.Put "maxParticipants" given stored other) :
    ∃ entriesToo, Tagged .conference entriesToo other := by
  obtain @⟨before, after, held, avoids⟩ := put
  obtain ⟨same, word⟩ := tagged
  cases same
  rw [Fields.lookup_around (by decide)] at word
  exact ⟨_, rfl, (Fields.lookup_around (by decide) given).trans word⟩

theorem answers_loadKept {step : String} {given : Option Json} {entries : Fields}
    {stored other : Json} (tagged : Tagged .conference entries stored)
    (put : Json.Put "maxParticipants" given stored other) :
    Answers maxParticipantsSlot (StoredPart.target.counter given) (loadKept step stored)
      (loadKept step other) := by
  obtain ⟨entriesToo, taggedToo⟩ := tagged.put put
  rw [tagged.loadKept, taggedToo.loadKept]
  refine Answers.locate ?_ _
  obtain @⟨before, after, held, avoids⟩ := put
  cases tagged.object
  cases taggedToo.object
  refine (ConferenceTarget.ownsCounter_maxParticipants.answers avoids (fun _ _ => trivial)
    given).bind fun target result isHere isResult => ?_
  cases isResult
  exact ⟨⟨_, rfl, isHere⟩, fun counter => rfl⟩

/-- A stored target of a known type is kept by every policy. -/
theorem kept_middle {entries : Fields} {dialType : DialType} {item : Json}
    (tagged : Tagged dialType entries item) (policy : TargetPolicy) (before after : List Json) :
    kept policy (before ++ item :: after) = kept policy before ++ item :: kept policy after := by
  cases policy with
  | drop =>
    rw [kept, kept, List.filter_append, List.filter_cons_of_pos (by simpa using tagged.known), kept]
  | fail => rfl

end DialTarget

/-- The key under which the targets are found that a dial step stores there. The older key is looked
at when there is no array under the newer one. -/
inductive Dial.Listed (before after : Fields) : String → Prop where
  | newer : before.lookup "targets" = none → Listed before after "targets"
  | older : before.lookup "dialNouns" = none →
      ((before ++ after).lookup "targets").bind Json.items? = none →
      Listed before after "dialNouns"

theorem Dial.Listed.storedTargets_eq {before after : Fields} {key : String}
    (listed : Listed before after key) (items : List Json) :
    storedTargets (before ++ (key, .arr items) :: after) = items := by
  cases listed with
  | newer absent =>
    rw [storedTargets, Fields.lookup_middle absent]
    rfl
  | older absent noArray =>
    rw [storedTargets, Fields.lookup_middle_of_ne (by decide), noArray, Fields.lookup_middle absent]
    rfl

/-! ### Stored steps -/

namespace Step

/-- Two stored steps that differ at most in what is stored for the counter of a place. The second
has there what is given. -/
inductive CounterPut (vocabulary : Vocabulary) (given : Option Json) :
    CounterPlace → Json → Json → Prop where
  | own {counter : OwnCounter} {stored other : Json} :
      vocabulary.storedKind stored = .ok counter.kind → Json.Put counter.key given stored other →
      CounterPut vocabulary given (.own counter) stored other
  | announcement {stored other : Json} :
      vocabulary.storedKind stored = .ok .gather →
      Json.Under "validation" (Json.Under "messageStep" (Json.Put "loop" given)) stored other →
      CounterPut vocabulary given .announcement stored other
  | target {index : Nat} {before after entries : Fields} {key : String}
      {earlier later : List Json} {item next : Json} :
      vocabulary.storedKind (.obj (before ++ (key, .arr (earlier ++ item :: later)) :: after)) =
        .ok .dial →
      Dial.Listed before after key → (DialTarget.kept vocabulary.policy earlier).length = index →
      DialTarget.Tagged .conference entries item → Json.Put "maxParticipants" given item next →
      CounterPut vocabulary given (.target index)
        (.obj (before ++ (key, .arr (earlier ++ item :: later)) :: after))
        (.obj (before ++ (key, .arr (earlier ++ next :: later)) :: after))
  | nextHop {index : Nat} {stored other : Json} :
      vocabulary.storedKind stored = .ok .externalService →
      Json.Under "nextValueExtractor" (Path.PositionPut given index) stored other →
      CounterPut vocabulary given (.nextHop index) stored other
  | assignmentHop {assignment index : Nat} {stored other : Json} :
      vocabulary.storedKind stored = .ok .externalService →
      Json.Under "assignments" (Json.ItemAt assignment
        (Json.Under "valueExtractor" (Path.PositionPut given index))) stored other →
      CounterPut vocabulary given (.assignmentHop assignment index) stored other
  | prompt {index : Nat} {place : CounterPlace} {before after : Fields} {earlier later : List Json}
      {item next : Json} :
      vocabulary.storedKind (.obj (before ++ ("steps", .arr (earlier ++ item :: later)) :: after)) =
        .ok .gather →
      before.lookup "steps" = none → earlier.length = index →
      CounterPut vocabulary given place item next →
      CounterPut vocabulary given (.prompt index place)
        (.obj (before ++ ("steps", .arr (earlier ++ item :: later)) :: after))
        (.obj (before ++ ("steps", .arr (earlier ++ next :: later)) :: after))

section Loading

variable {vocabulary : Vocabulary}

theorem answers_load_of_own {entries others : Fields} {kind : StepKind} {place : CounterPlace}
    {given : Except StepError (Option UInt32)}
    (isKind : vocabulary.storedKind (.obj entries) = .ok kind)
    (same : entries.lookup "kind" = others.lookup "kind")
    (answers : Answers (slot place) given (loadOwn vocabulary entries kind)
      (loadOwn vocabulary others kind)) :
    Answers (slot place) given (load vocabulary (.obj entries))
      (load vocabulary (.obj others)) := by
  rw [load_obj isKind, load_obj ((storedKind_congr vocabulary same).symm.trans isKind)]
  refine answers.bind fun step result isHere isResult => ?_
  cases isResult
  obtain ⟨isHereToo, keeps⟩ := slot_keptBy_normalize place step isHere
  exact ⟨isHereToo, fun counter => congrArg Except.ok (keeps counter)⟩

theorem answers_load_target {given : Option Json} {before after entries : Fields} {key : String}
    {earlier later : List Json} {item next : Json}
    (listed : Dial.Listed before after key) (tagged : DialTarget.Tagged .conference entries item)
    (put : Json.Put "maxParticipants" given item next) :
    Answers (slot (.target (DialTarget.kept vocabulary.policy earlier).length))
      (StoredPart.target.counter given)
      (loadOwn vocabulary (before ++ (key, .arr (earlier ++ item :: later)) :: after) .dial)
      (loadOwn vocabulary (before ++ (key, .arr (earlier ++ next :: later)) :: after) .dial) := by
  have apart : known Dial.fields key = false ∧ known Header.fields key = false := by
    cases listed <;> exact ⟨rfl, rfl⟩
  obtain ⟨_, taggedToo⟩ := tagged.put put
  -- The header, which names the step in errors, is read before the targets and does not see them.
  rw [loadOwn, loadOwn, loadDial, loadDial, readStep_middle_of_unknown apart.1 apart.2,
    readStep_middle_of_unknown apart.1 apart.2, listed.storedTargets_eq, listed.storedTargets_eq]
  refine Answers.bind_of_next (fun read => ?_) _
  simp only [DialTarget.loadAll_eq_mapM, DialTarget.kept_middle tagged,
    DialTarget.kept_middle taggedToo]
  refine ((DialTarget.answers_loadKept tagged put).mapM_middle _ _).bind
    fun targets result isHere isResult => ?_
  cases isResult
  exact ⟨⟨_, rfl, _, rfl, isHere⟩, fun counter => rfl⟩

theorem answers_loadGather_announcement {given : Option Json} {before after : Fields}
    {value next : Json} (absent : before.lookup "validation" = none)
    (changed : Json.Under "messageStep" (Json.Put "loop" given) value next) :
    Answers Gather.announcementSlot.second ((StoredPart.step .say).counter given)
      (loadGather (before ++ ("validation", value) :: after))
      (loadGather (before ++ ("validation", next) :: after)) := by
  obtain @⟨inner, others, stored, nextStored, absentToo, put⟩ := changed
  have read : (Validation.codec.nullAs .new).read
        (.obj (inner ++ ("messageStep", stored) :: others)) =
      (Validation.codec.nullAs .new).read
        (.obj (inner ++ ("messageStep", nextStored) :: others)) :=
    (Record.readObject_middle_of_unknown (by decide) rfl).trans
      (Record.readObject_middle_of_unknown (by decide) rfl).symm
  rw [loadGather, loadGather,
    readStep_congr_middle (by decide) (Gather.owns_validation.read_congr rfl read)]
  refine Answers.bind_of_next (fun read => ?_) _
  simp only [Gather.loadAnnouncement, Fields.lookup_middle absent, Option.bind_some, Json.get?,
    Fields.lookup_middle absentToo, bind_assoc]
  refine (Announcement.answers_load put).bind fun announcement result isHere isResult => ?_
  cases isResult
  exact ⟨isHere, fun counter => rfl⟩

theorem answers_load_nextHop {given : Option Json} {index : Nat} {before after : Fields}
    {value next : Json} (absent : before.lookup "nextValueExtractor" = none)
    (put : Path.PositionPut given index value next) :
    Answers (slot (.nextHop index)) (StoredPart.path.counter given)
      (loadOwn vocabulary (before ++ ("nextValueExtractor", value) :: after) .externalService)
      (loadOwn vocabulary (before ++ ("nextValueExtractor", next) :: after) .externalService) := by
  rw [loadOwn_nextPath_middle absent, loadOwn_nextPath_middle absent]
  refine Answers.bind_of_next (fun read => Answers.bind_of_next (fun assignments => ?_) _) _
  refine (Path.answers_load put).bind fun path result isHere isResult => ?_
  cases isResult
  exact ⟨⟨_, rfl, _, rfl, isHere⟩, fun counter => rfl⟩

theorem answers_load_assignmentHop {given : Option Json} {assignment index : Nat}
    {before after : Fields} {value next : Json} (absent : before.lookup "assignments" = none)
    (changed : Json.ItemAt assignment
      (Json.Under "valueExtractor" (Path.PositionPut given index)) value next) :
    Answers (slot (.assignmentHop assignment index)) (StoredPart.path.counter given)
      (loadOwn vocabulary (before ++ ("assignments", value) :: after) .externalService)
      (loadOwn vocabulary (before ++ ("assignments", next) :: after) .externalService) := by
  obtain @⟨earlier, later, item, nextItem, rfl, put⟩ := changed
  rw [loadOwn_assignments_middle absent, loadOwn_assignments_middle absent]
  refine Answers.bind_of_next (fun read => ?_) _
  refine ((Assignment.answers_load put).mapM_middle earlier later).bind
    fun assignments result isHere isResult => ?_
  obtain ⟨path, loaded, isResult⟩ := bind_eq_ok_iff.mp isResult
  cases isResult
  refine ⟨⟨_, rfl, _, rfl, isHere⟩, fun counter => ?_⟩
  rw [loaded]
  rfl

theorem answers_load_prompt {place : CounterPlace} {given : Except StepError (Option UInt32)}
    {before after : Fields} {earlier later : List Json} {item next : Json}
    (absent : before.lookup "steps" = none)
    (answers : Answers (slot place) given (load vocabulary item) (load vocabulary next)) :
    Answers (slot (.prompt earlier.length place)) given
      (loadOwn vocabulary (before ++ ("steps", .arr (earlier ++ item :: later)) :: after) .gather)
      (loadOwn vocabulary (before ++ ("steps", .arr (earlier ++ next :: later)) :: after)
        .gather) := by
  have steps (items : List Json) :
      (Json.obj (before ++ ("steps", .arr items) :: after)).storedSteps = items :=
    Json.storedSteps_eq (Fields.lookup_middle absent)
  have untaken : Gather.fields.find? (·.accepts "steps") = none := rfl
  have gathers : loadGather (before ++ ("steps", .arr (earlier ++ item :: later)) :: after) =
      loadGather (before ++ ("steps", .arr (earlier ++ next :: later)) :: after) := by
    refine loadGather_congr_middle (by decide) (fun field found => ?_) ?_
    · cases untaken.symm.trans found
    · rw [Fields.lookup_changed (by decide)]
  rw [loadOwn, loadOwn, steps, steps, gathers]
  refine Answers.bind_of_next (fun gather => ?_) _
  refine (answers.mapM_middle earlier later).bind fun prompts result isHere isResult => ?_
  cases isResult
  exact ⟨isHere, fun counter => rfl⟩

/-- **A stored step answers with the counter of a place**, at any depth; by induction on the way to
the place. -/
theorem answers_load {given : Option Json} {place : CounterPlace} {stored other : Json}
    (put : CounterPut vocabulary given place stored other) :
    Answers (slot place) (place.part.counter given) (load vocabulary stored)
      (load vocabulary other) := by
  induction put with
  | @own counter stored other isKind put =>
    obtain @⟨before, after, held, avoids⟩ := put
    have different : "kind" ≠ counter.key := by cases counter <;> decide
    refine answers_load_of_own isKind ?_ (answers_loadOwn avoids)
    rw [Fields.lookup_around different, Fields.lookup_around different]
  | announcement isKind changed =>
    obtain @⟨before, after, value, next, absent, changed⟩ := changed
    refine answers_load_of_own isKind (Fields.lookup_changed (by decide)) ?_
    exact answers_loadOwn_gather (answers_loadGather_announcement absent changed)
      (storedSteps_middle (by decide))
  | target isKind listed isIndex tagged put =>
    obtain rfl := isIndex
    refine answers_load_of_own isKind ?_ (answers_load_target listed tagged put)
    cases listed <;> exact Fields.lookup_changed (by decide)
  | nextHop isKind changed =>
    obtain @⟨before, after, value, next, absent, put⟩ := changed
    exact answers_load_of_own isKind (Fields.lookup_changed (by decide))
      (answers_load_nextHop absent put)
  | assignmentHop isKind changed =>
    obtain @⟨before, after, value, next, absent, changed⟩ := changed
    exact answers_load_of_own isKind (Fields.lookup_changed (by decide))
      (answers_load_assignmentHop absent changed)
  | prompt isKind absent isIndex _ ih =>
    obtain rfl := isIndex
    exact answers_load_of_own isKind (Fields.lookup_changed (by decide))
      (answers_load_prompt absent ih)

/-- What is made of another value that is stored for the counter of a place, in a stored step that
is loaded as `step`. A number and its text, with blanks around it, make the step with that counter,
or they are refused. What gives no counter is refused, too, in the part in which the counter is
read. Nothing, null and a blank text leave the counter unset, which a path does not allow for its
hops. -/
structure ReadsAlike (vocabulary : Vocabulary) (place : CounterPlace) (stored : Json)
    (step : Step) : Prop where
  number : ∀ n form other, Counter.Gives n form →
    CounterPut vocabulary (some form) place stored other → n < UInt32.size →
      load vocabulary other = .ok ((slot place).set (some n.toUInt32) step)
  tooLarge : ∀ n form other, Counter.Gives n form →
    CounterPut vocabulary (some form) place stored other → UInt32.size ≤ n →
      ∃ fault, load vocabulary other = .error (.malformed place.part fault)
  unfit : ∀ form other, Counter.Unfit form →
    CounterPut vocabulary (some form) place stored other →
      ∃ fault, load vocabulary other = .error (.malformed place.part fault)
  unset : ∀ given other, Counter.Unset given → CounterPut vocabulary given place stored other →
    load vocabulary other = if place.part = .path then .error (.badPath .missingPosition)
      else .ok ((slot place).set none step)
  holds : ∀ given other, CounterPut vocabulary given place stored other →
    ∀ counter, (slot place).get ((slot place).set counter step) = counter

/-- **Counters are read the same from numbers and from texts**, in every place of a step and at
every depth. Where a step has a counter, its canonical form has a plain number, which is read back
as the counter. -/
theorem counters_read_alike {place : CounterPlace} {stored : Json} {step : Step}
    (loaded : load vocabulary stored = .ok step) :
    ReadsAlike vocabulary place stored step ∧
      ∀ held counter, (slot place).here held → (slot place).get held = some counter →
        place.stored? held.canonical = some (Counter.write counter) ∧
          Counter.Gives counter.toNat (Counter.write counter) ∧
            Counter.read (Counter.write counter) = .ok (some counter) := by
  have outcome {given : Option Json} {other : Json}
      (put : CounterPut vocabulary given place stored other) :
      (slot place).here step ∧ load vocabulary other =
        (place.part.counter given).map ((slot place).set · step) :=
    answers_load put step loaded
  refine ⟨⟨fun n form other gives put small => ?_, fun n form other gives put large => ?_,
    fun form other unfit put => ?_, fun given other unset put => ?_, fun given other put => ?_⟩,
    fun held counter isHere isHeld => ⟨?_, Counter.gives_write counter, Counter.read_write counter⟩⟩
  · have reads : Counter.readOptional (some form) = .ok (some n.toUInt32) :=
      (Counter.read_of_gives gives).1 small
    rw [(outcome put).2, StoredPart.counter_of_some reads]
    rfl
  · obtain ⟨fault, refused⟩ : ∃ fault, Counter.readOptional (some form) = .error fault :=
      (Counter.read_of_gives gives).2 large
    rw [(outcome put).2, StoredPart.counter_of_error refused]
    exact ⟨fault, rfl⟩
  · obtain ⟨fault, refused⟩ : ∃ fault, Counter.readOptional (some form) = .error fault :=
      Counter.read_of_unfit unfit
    rw [(outcome put).2, StoredPart.counter_of_error refused]
    exact ⟨fault, rfl⟩
  · rw [(outcome put).2, StoredPart.counter_of_none (Counter.readOptional_of_unset unset)]
    split <;> rfl
  · exact (slot place).get_set (outcome put).1
  · rw [slot_shownBy_canonical place held isHere, isHeld]
    rfl

end Loading

/-- A stored room. -/
def storedRoom (callers : Option Json) : Json :=
  .obj (Fields.around [("destination", .str "team"), ("dialType", .str "conference")] []
    "maxParticipants" callers)

/-- A stored dial step with the room as its target. -/
def roomDial (callers : Option Json) : Json :=
  .obj ([("kind", .str "dial"), ("name", .str "ring")] ++
    ("targets", .arr ([] ++ storedRoom callers :: [])) :: [])

/-- A stored menu with the dial step as its prompt. -/
def roomMenu (callers : Option Json) : Json :=
  .obj ([("kind", .str "gather"), ("name", .str "ask")] ++
    ("steps", .arr ([] ++ roomDial callers :: [])) :: [])

/-- The menu, with the number of callers that the room takes. -/
def roomMenuStep (callers : Option UInt32) : Step :=
  .gather (.new .gather "ask") .new [.act (.new .dial "ring") (.dial { Dial.new with targets :=
    [.conference { ConferenceTarget.blank with
      destination := "team", maxParticipants := callers }] })]

theorem counters_read_alike_prompted :
    load .standard (roomMenu none) = .ok (roomMenuStep none) ∧
      load .standard (roomMenu (some (.str " 4294967295\n"))) =
        .ok (roomMenuStep (some 4294967295)) ∧
      (∃ fault, load .standard (roomMenu (some (.num (.natural 4294967296)))) =
        .error (.malformed .target fault)) ∧
      load .standard (roomMenu (some (.str "\t"))) = .ok (roomMenuStep none) := by
  have loaded : load .standard (roomMenu none) = .ok (roomMenuStep none) := rfl
  have put (given : Option Json) :
      CounterPut .standard given (.prompt 0 (.target 0)) (roomMenu none) (roomMenu given) := by
    have room : DialTarget.Tagged .conference _ (storedRoom none) := ⟨rfl, rfl⟩
    have callers : Json.Put "maxParticipants" given (storedRoom none) (storedRoom given) :=
      .intro (by simp [Fields.Avoids])
    have dial : CounterPut .standard given (.target 0) (roomDial none) (roomDial given) :=
      .target rfl (.newer rfl) rfl room callers
    exact .prompt rfl rfl rfl dial
  have alike : ReadsAlike .standard (.prompt 0 (.target 0)) (roomMenu none) (roomMenuStep none) :=
    (counters_read_alike loaded).1
  have text : Counter.Gives 4294967295 (.str " 4294967295\n") :=
    .text (List.forall_mem_singleton.mpr (by decide : Text.isBlank ' ' = true))
      (List.forall_mem_singleton.mpr (by decide : Text.isBlank '\n' = true)) (by decide)
  have number : Counter.Gives 4294967296 (.num (.natural 4294967296)) := .number (by decide)
  refine ⟨loaded, ?_, ?_, ?_⟩
  · exact alike.number _ _ _ text (put _) (by decide)
  · exact alike.tooLarge _ _ _ number (put _) (by decide)
  · have blank : ∀ c ∈ "\t".toList, Text.isBlank c = true :=
      List.forall_mem_singleton.mpr (by decide : Text.isBlank '\t' = true)
    exact alike.unset _ _ (.blank blank) (put _)

end Step

end IvrFlow
