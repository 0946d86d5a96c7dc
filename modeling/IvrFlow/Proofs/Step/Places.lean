import IvrFlow.Proofs.Path.Positions
import IvrFlow.Proofs.Step.Canonical
import IvrFlow.Step.Edit

/-!
The places of counters in steps: in a step itself, in the announcement of a gather step, in the
targets of a dial step, in the paths of a call of a service, and in prompts, at every depth.
Normalizing leaves the counters alone (`Step.slot_keptBy_normalize`), and the canonical form has
each of them as a number in its place (`Step.slot_shownBy_canonical`).
-/

namespace IvrFlow

/-! ### Slots of actions -/

/-- How often a phrase is announced. -/
def Say.repeatsSlot : Slot Say := .field (·.repeats) ({ · with repeats := · })

/-- How often audio is played. -/
def Play.repeatsSlot : Slot Play := .field (·.repeats) ({ · with repeats := · })

/-- How long a pause is. -/
def Pause.lengthSlot : Slot Pause := .field (·.length) ({ · with length := · })

/-- How many callers a room takes. -/
def ConferenceTarget.maxParticipantsSlot : Slot ConferenceTarget :=
  .field (·.maxParticipants) ({ · with maxParticipants := · })

/-- How many callers the room takes that a target is. -/
def DialTarget.maxParticipantsSlot : Slot DialTarget :=
  ConferenceTarget.maxParticipantsSlot.variant
    (fun | .conference target => some target | _ => none) .conference

namespace Dial

/-- How long the call may last. -/
def timeLimitSlot : Slot Dial := .field (·.timeLimit) ({ · with timeLimit := · })

/-- How long the targets ring. -/
def timeoutSlot : Slot Dial := .field (·.timeout) ({ · with timeout := · })

/-- How many callers the room takes that one of the targets is. -/
def targetSlot (index : Nat) : Slot Dial :=
  (DialTarget.maxParticipantsSlot.item index).within (·.targets) ({ · with targets := · })

end Dial

namespace Service

/-- The position of a hop of the path to the next step. -/
def nextSlot (index : Nat) : Slot Service :=
  (Path.positionSlot index).within (·.nextPath) ({ · with nextPath := · })

/-- The position of a hop of the path of an assignment. -/
def assignmentSlot (assignment index : Nat) : Slot Service :=
  ((Assignment.positionSlot index).item assignment).within (·.assignments)
    ({ · with assignments := · })

end Service

namespace Action

/-- A slot in what is announced. -/
def saySlot (slot : Slot Say) : Slot Action :=
  slot.variant (fun | .say body => some body | _ => none) .say

/-- A slot in what is played. -/
def playSlot (slot : Slot Play) : Slot Action :=
  slot.variant (fun | .play body => some body | _ => none) .play

/-- A slot in a pause. -/
def pauseSlot (slot : Slot Pause) : Slot Action :=
  slot.variant (fun | .pause body => some body | _ => none) .pause

/-- A slot in what is dialled. -/
def dialSlot (slot : Slot Dial) : Slot Action :=
  slot.variant (fun | .dial body => some body | _ => none) .dial

/-- A slot in a call of a service. -/
def serviceSlot (slot : Slot Service) : Slot Action :=
  slot.variant (fun | .externalService body => some body | _ => none) .externalService

end Action

/-! ### Slots of gather steps -/

/-- How often an announcement is made. -/
def Announcement.repeatsSlot : Slot Announcement :=
  Say.repeatsSlot.within (·.say) ({ · with say := · })

/-- How often it is announced that the input is not valid. -/
def Validation.announcementSlot : Slot Validation :=
  Announcement.repeatsSlot.within (·.announcement) ({ · with announcement := · })

namespace Gather

/-- How many digits are gathered. -/
def numDigitsSlot : Slot Gather := .field (·.numDigits) ({ · with numDigits := · })

/-- How long the digits are waited for. -/
def timeoutSlot : Slot Gather := .field (·.timeout) ({ · with timeout := · })

/-- How often it is announced that the digits are not right. -/
def announcementSlot : Slot Gather :=
  Validation.announcementSlot.within (·.validation) ({ · with validation := · })

end Gather

/-! ### Places in steps -/

/-- The counters that steps have among their own fields. -/
inductive OwnCounter where
  | sayLoop
  | playLoop
  | numDigits
  | gatherTimeout
  | timeLimit
  | dialTimeout
  | pauseLength

namespace OwnCounter

/-- The kind of step that has the counter. -/
def kind : OwnCounter → StepKind
  | .sayLoop => .say
  | .playLoop => .play
  | .numDigits | .gatherTimeout => .gather
  | .timeLimit | .dialTimeout => .dial
  | .pauseLength => .pause

/-- The key under which it is stored. -/
def key : OwnCounter → String
  | .sayLoop | .playLoop => "loop"
  | .numDigits => "numDigits"
  | .timeLimit => "timeLimit"
  | .gatherTimeout | .dialTimeout => "timeout"
  | .pauseLength => "length"

end OwnCounter

/-- A place of a counter in a step. Targets, hops, assignments and prompts are counted from the
first one on. -/
inductive CounterPlace where
  | own (counter : OwnCounter)
  | announcement
  | target (index : Nat)
  | nextHop (index : Nat)
  | assignmentHop (assignment index : Nat)
  | prompt (index : Nat) (place : CounterPlace)

/-- The stored part in which the counter is read. -/
def CounterPlace.part : CounterPlace → StoredPart
  | .own counter => .step counter.kind
  | .announcement => .step .say
  | .target _ => .target
  | .nextHop _ | .assignmentHop _ _ => .path
  | .prompt _ place => place.part

namespace Step

/-- The slots of a step in its action. -/
def inAction (slot : Slot Action) : Slot Step :=
  slot.inside (fun | .act _ action => some action | _ => none)
    (fun change => fun | .act header action => .act header (change action) | step => step)
    fun {step part} found change => by
      cases step with
      | act header action => cases found; rfl
      | gather header digits prompts => cases found

/-- The slots of a step in how it gathers digits. -/
def inDigits (slot : Slot Gather) : Slot Step :=
  slot.inside (fun | .gather _ digits _ => some digits | _ => none)
    (fun change => fun
      | .gather header digits prompts => .gather header (change digits) prompts
      | step => step)
    fun {step part} found change => by
      cases step with
      | act header action => cases found
      | gather header digits prompts => cases found; rfl

/-- The slots of a step in one of its prompts. -/
def inPrompt (index : Nat) (slot : Slot Step) : Slot Step :=
  slot.inside (·.prompts[index]?) (fun change => editPrompts (List.modify · index change))
    fun {step part} found change => by
      cases step with
      | act header action => cases found
      | gather header digits prompts =>
        show (prompts.modify index change)[index]? = _
        rw [List.getElem?_modify_eq]
        exact congrArg (Option.map change) found

/-- The slot of an own counter. -/
def ownSlot : OwnCounter → Slot Step
  | .sayLoop => inAction (Action.saySlot Say.repeatsSlot)
  | .playLoop => inAction (Action.playSlot Play.repeatsSlot)
  | .numDigits => inDigits Gather.numDigitsSlot
  | .gatherTimeout => inDigits Gather.timeoutSlot
  | .timeLimit => inAction (Action.dialSlot Dial.timeLimitSlot)
  | .dialTimeout => inAction (Action.dialSlot Dial.timeoutSlot)
  | .pauseLength => inAction (Action.pauseSlot Pause.lengthSlot)

/-- The slot of a place. -/
def slot : CounterPlace → Slot Step
  | .own counter => ownSlot counter
  | .announcement => inDigits Gather.announcementSlot
  | .target index => inAction (Action.dialSlot (Dial.targetSlot index))
  | .nextHop index => inAction (Action.serviceSlot (Service.nextSlot index))
  | .assignmentHop assignment index =>
    inAction (Action.serviceSlot (Service.assignmentSlot assignment index))
  | .prompt index place => inPrompt index (slot place)

/-! ### Normalizing -/

theorem inAction_keptBy {α : Type} {slot : Slot α} {body? : Action → Option α} {wrap : α → Action}
    {isForm : ∀ value body, body? value = some body ↔ value = wrap body} {inner : α → α}
    (kept : slot.KeptBy inner) (changes : ∀ body, (wrap body).normalize = wrap (inner body))
    {kind : StepKind} (kinds : ∀ body, (wrap body).kind = kind) :
    (inAction (slot.variant body? wrap isForm)).KeptBy normalize := by
  rintro step ⟨action, found, isHere⟩
  cases step with
  | act header action =>
    cases found
    obtain ⟨isHereToo, keeps⟩ := Slot.variant_keptBy kept changes _ isHere
    refine ⟨⟨_, rfl, isHereToo⟩, fun counter => ?_⟩
    obtain ⟨body, isBody, _⟩ := isHere
    obtain rfl := (isForm _ _).mp isBody
    show act (header.normalize ((slot.variant body? wrap isForm).set counter (wrap body)).kind) _ =
      act (header.normalize (wrap body).kind) _
    rw [keeps, Slot.variant_set, kinds, kinds]
  | gather header digits prompts => cases found

theorem inDigits_keptBy {slot : Slot Gather} (kept : slot.KeptBy Gather.normalize) :
    (inDigits slot).KeptBy normalize := by
  rintro step ⟨digits, found, isHere⟩
  cases step with
  | act header action => cases found
  | gather header digits prompts =>
    cases found
    obtain ⟨isHereToo, keeps⟩ := kept _ isHere
    refine ⟨⟨_, rfl, isHereToo⟩, fun counter => ?_⟩
    exact congrArg (gather _ · _) (keeps counter)

theorem inPrompt_keptBy {slot : Slot Step} (kept : slot.KeptBy normalize) (index : Nat) :
    (inPrompt index slot).KeptBy normalize := by
  rintro step ⟨prompt, found, isHere⟩
  cases step with
  | act header action => cases found
  | gather header digits prompts =>
    obtain ⟨before, after, rfl, rfl⟩ := exists_split_at found
    obtain ⟨isHereToo, keeps⟩ := kept prompt isHere
    have stands : (before ++ prompt :: after).map normalize =
        before.map normalize ++ prompt.normalize :: after.map normalize := by
      rw [List.map_append, List.map_cons]
    have length : before.length = (before.map normalize).length := (List.length_map _).symm
    refine ⟨⟨prompt.normalize, ?_, isHereToo⟩, fun counter => ?_⟩
    · show (normalizeAll (before ++ prompt :: after))[before.length]? = _
      rw [normalizeAll_eq_map, List.getElem?_map]
      exact congrArg (Option.map normalize) found
    · show gather _ _ (normalizeAll ((before ++ prompt :: after).modify before.length _)) =
        gather _ _ ((normalizeAll (before ++ prompt :: after)).modify before.length _)
      rw [normalizeAll_eq_map, normalizeAll_eq_map, modify_middle, stands, length, modify_middle,
        List.map_append, List.map_cons, keeps]

/-- **Normalizing leaves the counters alone.** -/
theorem slot_keptBy_normalize (place : CounterPlace) : (slot place).KeptBy normalize := by
  induction place with
  | own counter =>
    cases counter with
    | sayLoop => exact inAction_keptBy (.field fun _ _ => rfl) (fun _ => rfl) fun _ => rfl
    | playLoop => exact inAction_keptBy (.field fun _ _ => rfl) (fun _ => rfl) fun _ => rfl
    | numDigits => exact inDigits_keptBy (.field fun _ _ => rfl)
    | gatherTimeout => exact inDigits_keptBy (.field fun _ _ => rfl)
    | timeLimit | dialTimeout | pauseLength =>
      exact inAction_keptBy (.id _) (fun _ => rfl) fun _ => rfl
  | announcement => exact inDigits_keptBy fun _ _ => ⟨trivial, fun _ => rfl⟩
  | target | nextHop | assignmentHop => exact inAction_keptBy (.id _) (fun _ => rfl) fun _ => rfl
  | prompt index place ih => exact inPrompt_keptBy ih index

end Step

/-! ### Canonical forms -/

/-- What a stored path has for the position of a hop. -/
def Path.storedPosition? (index : Nat) (stored : Json) : Option Json := do
  (← (← stored.get? "operations").item? index).get? "position"

/-- What a stored step has for the counter of a place. -/
def CounterPlace.stored? : CounterPlace → Json → Option Json
  | .own counter, stored => stored.get? counter.key
  | .announcement, stored => do (← (← stored.get? "validation").get? "messageStep").get? "loop"
  | .target index, stored => do
    (← (← stored.get? "targets").item? index).get? "maxParticipants"
  | .nextHop index, stored => do
    Path.storedPosition? index (← stored.get? "nextValueExtractor")
  | .assignmentHop assignment index, stored => do
    Path.storedPosition? index
      (← (← (← stored.get? "assignments").item? assignment).get? "valueExtractor")
  | .prompt index place, stored => do place.stored? (← (← stored.get? "steps").item? index)

theorem Path.positionSlot_shownBy (index : Nat) :
    (positionSlot index).ShownBy toJson (storedPosition? index) := by
  have hop : Hop.shownSlot.ShownBy Hop.form.codec.write (Json.get? "position") := fun hop _ =>
    lookup_writeFields (by decide) (List.getElem_mem (by decide : 1 < Hop.form.fields.length))
  exact Slot.ShownBy.within (hop.item index) fun _ => rfl

theorem Assignment.positionSlot_shownBy (index : Nat) :
    (positionSlot index).ShownBy toJson
      (fun stored => do Path.storedPosition? index (← stored.get? "valueExtractor")) :=
  Slot.ShownBy.within (Path.positionSlot_shownBy index) fun _ => Fields.lookup_insert_self _ _ _

theorem DialTarget.maxParticipantsSlot_shownBy :
    maxParticipantsSlot.ShownBy toJson (Json.get? "maxParticipants") := by
  refine .variant fun target _ => (Fields.lookup_insert_of_ne _ _ (by decide)).trans ?_
  exact lookup_writeFields (by decide)
    (List.getElem_mem (by decide : 3 < ConferenceTarget.fields.length))

theorem Announcement.repeatsSlot_shownBy :
    repeatsSlot.ShownBy canonical (Json.get? "loop") := fun announcement _ =>
  (Header.lookup_entries_of_notMem (by decide) _ _ _).trans
    (lookup_writeFields (by decide) (List.getElem_mem (by decide : 1 < Say.fields.length)))

theorem Validation.announcementSlot_shownBy :
    announcementSlot.ShownBy (fun validation => codec.write validation.normalize)
      (fun stored => do (← stored.get? "messageStep").get? "loop") := by
  refine Slot.ShownBy.within Announcement.repeatsSlot_shownBy fun validation => ?_
  rw [← Announcement.canonical_normalize]
  exact Fields.lookup_insert_self _ _ _

namespace Step

theorem inAction_shownBy {slot : Slot Action} {find : Json → Option Json}
    (shown : ∀ header, slot.ShownBy (fun action => (act header action).canonical) find) :
    (inAction slot).ShownBy canonical find := by
  rintro step ⟨action, found, isHere⟩
  cases step with
  | act header action =>
    cases found
    exact shown header action isHere
  | gather header digits prompts => cases found

theorem inDigits_shownBy {slot : Slot Gather} {find : Json → Option Json}
    (shown : ∀ header prompts,
      slot.ShownBy (fun digits => (gather header digits prompts).canonical) find) :
    (inDigits slot).ShownBy canonical find := by
  rintro step ⟨digits, found, isHere⟩
  cases step with
  | act header action => cases found
  | gather header digits prompts =>
    cases found
    exact shown header prompts digits isHere

theorem inPrompt_shownBy {slot : Slot Step} {find : Json → Option Json}
    (shown : slot.ShownBy canonical find) (index : Nat) :
    (inPrompt index slot).ShownBy canonical
      (fun stored => do find (← (← stored.get? "steps").item? index)) := by
  rintro step ⟨prompt, found, isHere⟩
  cases step with
  | act header action => cases found
  | gather header digits prompts =>
    show ((gather header digits prompts).canonical.get? "steps").bind _ =
      (prompts[index]?.bind slot.get).map Counter.write
    rw [get?_steps_canonical]
    exact shown.item index prompts ⟨prompt, found, isHere⟩

theorem inDial_shownBy {slot : Slot Dial} {key : String} (own : key ∉ Header.keys)
    (apart : key ≠ "targets")
    (written : ∀ dial, (writeFields Dial.fields dial).lookup key =
      (slot.get dial).map Counter.write) :
    (inAction (Action.dialSlot slot)).ShownBy canonical (Json.get? key) := by
  refine inAction_shownBy fun header => .variant fun dial _ => ?_
  rw [get?_canonical_act own]
  exact (Fields.lookup_insert_of_ne _ _ apart).trans (written dial)

/-- Neither normalizing nor pruning may change the counter. -/
theorem inDigits_shownBy_of_kept {slot : Slot Gather} {key : String} (own : key ∉ Header.keys)
    (apart : key ≠ "steps")
    (written : ∀ digits, (writeFields Gather.fields digits).lookup key =
      (slot.get digits).map Counter.write)
    (kept : ∀ digits : Gather, slot.get digits.normalize.prune = slot.get digits) :
    (inDigits slot).ShownBy canonical (Json.get? key) := by
  refine inDigits_shownBy fun header prompts digits _ => ?_
  rw [get?_canonical_gather own, Gather.entries, Fields.lookup_insert_of_ne _ _ apart, written,
    kept]

theorem ownSlot_shownBy (counter : OwnCounter) :
    (ownSlot counter).ShownBy canonical (Json.get? counter.key) := by
  cases counter with
  | sayLoop =>
    refine inAction_shownBy fun header => .variant fun body _ => ?_
    rw [get?_canonical_act (by decide)]
    exact lookup_writeFields (by decide) (List.getElem_mem (by decide : 1 < Say.fields.length))
  | playLoop =>
    refine inAction_shownBy fun header => .variant fun body _ => ?_
    have kept : body.normalize.prune.repeats = body.repeats := by
      rw [Play.prune]
      split <;> rfl
    rw [get?_canonical_act (by decide)]
    show (writeFields Play.fields body.normalize.prune).lookup "loop" =
      body.repeats.map Counter.write
    rw [← kept]
    exact lookup_writeFields (by decide) (List.getElem_mem (by decide : 1 < Play.fields.length))
  | pauseLength =>
    refine inAction_shownBy fun header => .variant fun body _ => ?_
    rw [get?_canonical_act (by decide)]
    exact lookup_writeFields (by decide) (List.getElem_mem (by decide : 0 < Pause.fields.length))
  | timeLimit =>
    exact inDial_shownBy (by decide) (by decide) fun dial =>
      lookup_writeFields (by decide) (List.getElem_mem (by decide : 5 < Dial.fields.length))
  | dialTimeout =>
    exact inDial_shownBy (by decide) (by decide) fun dial =>
      lookup_writeFields (by decide) (List.getElem_mem (by decide : 6 < Dial.fields.length))
  | numDigits =>
    refine inDigits_shownBy_of_kept (by decide) (by decide) (fun digits => ?_) fun digits => ?_
    · exact lookup_writeFields (by decide)
        (List.getElem_mem (by decide : 6 < Gather.fields.length))
    · rw [Gather.prune]
      split <;> rfl
  | gatherTimeout =>
    refine inDigits_shownBy_of_kept (by decide) (by decide) (fun digits => ?_) fun digits => ?_
    · exact lookup_writeFields (by decide)
        (List.getElem_mem (by decide : 7 < Gather.fields.length))
    · rw [Gather.prune]
      split <;> rfl

/-- **Canonical forms have the counters as numbers in their places.** -/
theorem slot_shownBy_canonical (place : CounterPlace) :
    (slot place).ShownBy canonical place.stored? := by
  induction place with
  | own counter => exact ownSlot_shownBy counter
  | announcement =>
    refine inDigits_shownBy fun header prompts => ?_
    refine Slot.ShownBy.within Validation.announcementSlot_shownBy fun digits => ?_
    simp [Gather.normalize]
  | target index =>
    refine inAction_shownBy fun header => .variant ?_
    refine Slot.ShownBy.within (DialTarget.maxParticipantsSlot_shownBy.item index) fun dial => ?_
    simp [Action.normalize, Action.prune, Action.entries]
  | nextHop index =>
    refine inAction_shownBy fun header => .variant ?_
    refine Slot.ShownBy.within (Path.positionSlot_shownBy index) fun service => ?_
    simp [Action.normalize, Action.prune, Action.entries]
  | assignmentHop assignment index =>
    refine inAction_shownBy fun header => .variant ?_
    refine Slot.ShownBy.within ((Assignment.positionSlot_shownBy index).item assignment)
      fun service => ?_
    simp [Action.normalize, Action.prune, Action.entries]
  | prompt index place ih => exact inPrompt_shownBy ih index

end Step

end IvrFlow
