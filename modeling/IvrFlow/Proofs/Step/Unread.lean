import IvrFlow.Proofs.Record.Agree
import IvrFlow.Proofs.Step.Absence
import IvrFlow.Proofs.Step.EditorData
import IvrFlow.Proofs.Step.Targets

/-!
Entries that are not read. What a stored step is loaded as, or why it is not, depends on the entries
under the keys that its kind knows, and in each of its parts on those under the keys that the part
knows. What stands under other keys, in a step or in a part of it, at any depth, may be anything
(`only_known_read`).

There is one exception: an empty view of a pattern stands for none, and so it matters whether there
is an entry in it (`emptyView_read`).
-/

namespace IvrFlow

/-! ### Keys that are known -/

/-- The keys of a choice. -/
def MenuMapping.keys : List String := ["digits", "next"]

/-- The keys of a menu. -/
def Menu.keys : List String := ["mappings"]

/-- The keys of free input. -/
def CollectDigits.keys : List String := ["collectVariable", "next", "scope"]

/-- The keys of a view of a pattern. -/
def PatternView.keys : List String := ["userPattern", "userPatternType"]

/-- The keys of a validation. -/
def Validation.keys : List String := ["iface", "messageStep", "pattern"]

/-- The keys of a local file. -/
def LocalAudio.keys : List String := ["wavLocalFilename"]

/-- The keys of a remote file. -/
def RemoteAudio.keys : List String := ["wavUrl"]

/-- The keys of a parameter of an address. -/
def UrlParameter.keys : List String := ["name", "value"]

/-- The keys of a hop. -/
def Hop.keys : List String := ["kind", "position", "property"]

/-- The keys of a path. -/
def Path.keys : List String := ["accessOperations", "operations"]

/-- The keys of an assignment. -/
def Assignment.keys : List String :=
  ["destVariable", "destinationVariable", "scope", "valueExtractor"]

/-- The keys of a target of a type. -/
def DialType.keys (dialType : DialType) : List String :=
  "dialType" :: dialType.layout.map Prod.fst

/-- The own keys of a kind of step. -/
def StepKind.ownKeys : StepKind → List String
  | .say => ["language", "loop", "phrase", "voice"]
  | .play => ["local", "loop", "playType", "remote"]
  | .gather =>
    ["action", "collectDigits", "collectdigits", "finishOnKey", "gatherType", "menu", "method",
      "numDigits", "steps", "timeout", "validation"]
  | .dial =>
    ["action", "callerId", "dialNouns", "method", "nextModule", "record", "targets", "timeLimit",
      "timeout"]
  | .redirect => ["method", "url"]
  | .hangUp => []
  | .reject => ["reason"]
  | .pause => ["length"]
  | .externalService =>
    ["assignments", "doRouting", "next", "nextType", "nextValueExtractor", "url", "urlParameters",
      "urlParams"]

/-- The keys of a stored step of a kind. -/
def StepKind.keys (kind : StepKind) : List String := Header.keys ++ kind.ownKeys

/-! ### Paths and assignments -/

/-- A stored path in which entries are changed that are not read: own ones, or of a hop. -/
inductive Path.Unread : Json → Json → Prop where
  | own {stored other : Json} : Json.Agree keys stored other → Unread stored other
  | hop {stored other : Json} :
      form.Changed "operations" (Json.Item (Json.Agree Hop.keys)) stored other → Unread stored other

/-- A stored assignment in which entries are changed that are not read: own ones, or in its path. -/
inductive Assignment.Unread : Json → Json → Prop where
  | own {stored other : Json} : Json.Agree keys stored other → Unread stored other
  | path {stored other : Json} :
      Json.Under "valueExtractor" Path.Unread stored other → Unread stored other

namespace Path

theorem Unread.ne_null {stored other : Json} (unread : Unread stored other) :
    stored ≠ .null ∧ other ≠ .null := by
  rcases unread with ⟨⟨_⟩⟩ | ⟨⟨_, _⟩⟩ <;> exact ⟨nofun, nofun⟩

theorem read_of_unread {stored other : Json} (unread : Unread stored other) :
    form.codec.read stored = form.codec.read other := by
  cases unread with
  | own agree => exact Record.read_of_agree (by decide) agree
  | hop changed =>
    refine Record.read_of_changed owns_operations owns_operations ?_ changed
    exact Codec.list_of_item (Record.read_of_agree (by decide))

theorem load_of_unread {stored other : Json} (unread : Unread stored other) :
    load stored = load other := by
  obtain ⟨notNull, notNullToo⟩ := unread.ne_null
  rw [load_of_ne notNull, load_of_ne notNullToo, read_of_unread unread]

end Path

theorem Assignment.load_of_unread {stored other : Json} (unread : Unread stored other) :
    load stored = load other := by
  cases unread with
  | own agree =>
    have read : form.codec.read stored = form.codec.read other :=
      Record.read_of_agree (by decide) agree
    obtain @⟨entries, others, agree⟩ := agree
    rw [load, load, read, Json.get?, Json.get?, agree.lookup (by decide)]
  | path changed =>
    obtain @⟨before, after, value, next, absent, unread⟩ := changed
    rw [load_middle absent, load_middle absent, Path.load_of_unread unread]

/-! ### Menus, validations and announcements -/

/-- A stored menu in which entries are changed that are not read: own ones, or of a choice. -/
inductive Menu.Unread : Json → Json → Prop where
  | own {stored other : Json} : Json.Agree keys stored other → Unread stored other
  | mapping {stored other : Json} :
      form.Changed "mappings" (Json.Item (Json.Agree MenuMapping.keys)) stored other →
      Unread stored other

/-- A stored view of a pattern in which entries are changed that are not read. It is not empty, nor
does it become so. -/
inductive PatternView.Unread : Json → Json → Prop where
  | intro {entries others : Fields} : entries ≠ [] → others ≠ [] → entries.Agree keys others →
      Unread (.obj entries) (.obj others)

/-- An empty view of a pattern, and null in its place. -/
inductive PatternView.Emptied : Json → Json → Prop where
  | intro : Emptied (.obj []) .null

/-- A stored validation in which entries are changed that are not read: own ones, of its view, or of
its announcement. -/
inductive Validation.Unread : Json → Json → Prop where
  | own {stored other : Json} : Json.Agree keys stored other → Unread stored other
  | view {stored other : Json} :
      form.Changed "iface" PatternView.Unread stored other → Unread stored other
  | announcement {stored other : Json} :
      Json.Under "messageStep" (Json.Agree StepKind.say.keys) stored other → Unread stored other

theorem Menu.read_of_unread {stored other : Json} (unread : Unread stored other) :
    form.codec.read stored = form.codec.read other := by
  cases unread with
  | own agree => exact Record.read_of_agree (by decide) agree
  | mapping changed =>
    refine Record.read_of_changed owns_mappings owns_mappings (fun changed => ?_) changed
    exact Codec.nullAs_list_of_item (Record.read_of_agree (by decide)) changed []

theorem Menu.orNull_of_unread {stored other : Json} (unread : Unread stored other) :
    form.codec.orNull stored = form.codec.orNull other := by
  have notNull : stored ≠ .null ∧ other ≠ .null := by
    rcases unread with ⟨⟨_⟩⟩ | ⟨⟨_, _⟩⟩ <;> exact ⟨nofun, nofun⟩
  rw [Codec.orNull_of_ne notNull.1, Codec.orNull_of_ne notNull.2, read_of_unread unread]

theorem PatternView.orEmpty_of_unread {stored other : Json} (unread : Unread stored other) :
    form.codec.orEmpty stored = form.codec.orEmpty other := by
  obtain @⟨entries, others, nonempty, nonemptyToo, agree⟩ := unread
  have read : form.codec.read (.obj entries) = form.codec.read (.obj others) :=
    Record.read_of_agree (by decide) (.obj agree)
  cases entries with
  | nil => exact absurd rfl nonempty
  | cons entry rest =>
    cases others with
    | nil => exact absurd rfl nonemptyToo
    | cons entryToo restToo => exact congrArg (· >>= fun view => .ok (some view)) read

section ReadStep

variable {α : Type} {keys : List String} {kind : StepKind} {own : List (Field α)} {blank : α}
  {entries others : Fields}

theorem readStep_of_agree (agree : entries.Agree keys others) (covers : Covers keys own)
    (coversHeader : Covers keys Header.fields) :
    readStep kind own blank entries = readStep kind own blank others := by
  rw [readStep, readStep, readFields_of_agree covers agree, readFields_of_agree coversHeader agree]

end ReadStep

theorem Announcement.load_of_agree {stored other : Json}
    (agree : Json.Agree StepKind.say.keys stored other) : load stored = load other := by
  obtain @⟨entries, others, agree⟩ := agree
  rw [load, load, readStep_of_agree agree (by decide) (by decide)]

theorem Validation.Unread.ne_null {stored other : Json} (unread : Unread stored other) :
    stored ≠ .null ∧ other ≠ .null := by
  rcases unread with ⟨⟨_⟩⟩ | ⟨⟨_, _⟩⟩ | ⟨⟨_, _⟩⟩ <;> exact ⟨nofun, nofun⟩

theorem Validation.read_of_unread {stored other : Json} (unread : Unread stored other) :
    codec.read stored = codec.read other := by
  cases unread with
  | own agree =>
    show form.codec.read stored = form.codec.read other
    exact Record.read_of_agree (by decide) agree
  | view changed =>
    exact Record.read_of_changed owns_view owns_view_position PatternView.orEmpty_of_unread changed
  | announcement changed =>
    obtain @⟨before, after, value, next, absent, agree⟩ := changed
    exact (Record.readObject_middle_of_unknown (by decide) rfl).trans
      (Record.readObject_middle_of_unknown (by decide) rfl).symm

/-- The announcement of a validation is loaded alike. -/
theorem Validation.announced_of_unread {stored other : Json} (unread : Unread stored other) :
    (stored.get? "messageStep").map Announcement.load =
      (other.get? "messageStep").map Announcement.load := by
  cases unread with
  | own agree =>
    obtain @⟨entries, others, agree⟩ := agree
    rw [Json.get?, Json.get?, agree.lookup (by decide)]
  | view changed => rw [changed.get?_of_other (by decide)]
  | announcement changed =>
    obtain @⟨before, after, value, next, absent, agree⟩ := changed
    rw [Json.get?, Json.get?, Fields.lookup_middle absent, Fields.lookup_middle absent,
      Option.map_some, Option.map_some, Announcement.load_of_agree agree]

/-! ### Targets -/

namespace DialTarget

/-- A stored target in which entries are changed that are not read. Of an unknown type nothing else
is read. -/
inductive Unread : Json → Json → Prop where
  | known {dialType : DialType} {entries others : Fields} :
      entries.lookup "dialType" = some (.str dialType.word) → entries.Agree dialType.keys others →
      Unread (.obj entries) (.obj others)
  | unknown {entries others : Fields} : Unknown (.obj entries) → entries.Agree ["dialType"] others →
      Unread (.obj entries) (.obj others)

theorem readEntries_of_agree {dialType : DialType} {entries others : Fields}
    (agree : entries.Agree dialType.keys others) :
    readEntries entries dialType = readEntries others dialType := by
  cases dialType with
  | number | client | conference | sipUri =>
    rw [readEntries, readEntries, readFields_of_agree (by decide) agree]

theorem typeWord_of_unread {stored other : Json} (unread : Unread stored other) :
    typeWord stored = typeWord other := by
  cases unread with
  | known word agree =>
    rw [typeWord, typeWord, Json.get?, Json.get?, agree.lookup List.mem_cons_self]
  | unknown isUnknown agree =>
    rw [typeWord, typeWord, Json.get?, Json.get?, agree.lookup List.mem_cons_self]

theorem load?_of_unread {stored other : Json} (unread : Unread stored other) :
    load? stored = load? other := by
  have sameWord := typeWord_of_unread unread
  cases unread with
  | @known dialType entries others word agree =>
    have tagged : Tagged dialType entries (.obj entries) := ⟨rfl, word⟩
    have taggedToo : Tagged dialType others (.obj others) :=
      ⟨rfl, (agree.lookup List.mem_cons_self).symm.trans word⟩
    rw [tagged.load?, taggedToo.load?, readEntries_of_agree agree]
  | unknown isUnknown agree =>
    have isUnknownToo : Unknown (.obj _) := fun dialType => sameWord ▸ isUnknown dialType
    rw [load?_of_unknown isUnknown, load?_of_unknown isUnknownToo]

theorem loadAll_of_unread {stored other : Json} (unread : Unread stored other)
    (policy : TargetPolicy) (step : String) (before after : List Json) :
    loadAll policy step (before ++ stored :: after) =
      loadAll policy step (before ++ other :: after) := by
  induction before with
  | nil =>
    show loadAll policy step (stored :: after) = loadAll policy step (other :: after)
    rw [loadAll.eq_def, loadAll.eq_def]
    simp only [load?_of_unread unread, typeWord_of_unread unread]
  | cons first rest ih =>
    show loadAll policy step (first :: (rest ++ stored :: after)) =
      loadAll policy step (first :: (rest ++ other :: after))
    rw [loadAll.eq_def, loadAll.eq_def]
    simp only [ih]

/-- The targets may have their older key. What is stored under it does not matter where there is an
array under the newer one. -/
theorem loadAll_storedTargets_of_unread {before after : Fields} {key : String} {value next : Json}
    (isKey : key ∈ ["targets", "dialNouns"]) (absent : before.lookup key = none)
    (changed : Json.Item Unread value next) (policy : TargetPolicy) (step : String) :
    loadAll policy step (Dial.storedTargets (before ++ (key, value) :: after)) =
      loadAll policy step (Dial.storedTargets (before ++ (key, next) :: after)) := by
  obtain @⟨earlier, later, item, nextItem, unread⟩ := changed
  rcases List.mem_pair.mp isKey with rfl | rfl
  · rw [Dial.storedTargets, Dial.storedTargets, Fields.lookup_middle absent,
      Fields.lookup_middle absent]
    exact loadAll_of_unread unread policy step earlier later
  · have newer : (before ++ ("dialNouns", .arr (earlier ++ item :: later)) :: after).lookup
        "targets" = (before ++ ("dialNouns", .arr (earlier ++ nextItem :: later)) :: after).lookup
          "targets" := Fields.lookup_changed (by decide)
    rw [Dial.storedTargets, Dial.storedTargets, newer, Fields.lookup_middle absent,
      Fields.lookup_middle absent]
    cases (List.lookup "targets" _).bind Json.items? with
    | none => exact loadAll_of_unread unread policy step earlier later
    | some items => rfl

end DialTarget

/-! ### Steps -/

namespace Step

section Own

variable {vocabulary : Vocabulary} {entries others : Fields} {kind : StepKind}

theorem loadOwn_of_agree (agree : entries.Agree kind.keys others) :
    loadOwn vocabulary entries kind = loadOwn vocabulary others kind := by
  cases kind with
  | say | play | redirect | hangUp | reject | pause =>
    rw [loadOwn, loadOwn, loadPlain, loadPlain, readStep_of_agree agree (by decide) (by decide)]
  | dial =>
    have read : readStep .dial Dial.fields .new entries = readStep .dial Dial.fields .new others :=
      readStep_of_agree agree (by decide) (by decide)
    have newer : entries.lookup "targets" = others.lookup "targets" := agree.lookup (by decide)
    have older : entries.lookup "dialNouns" = others.lookup "dialNouns" :=
      agree.lookup (by decide)
    simp only [loadOwn, loadDial, read, Dial.storedTargets, newer, older]
  | externalService =>
    have read : readStep .externalService Service.fields .new entries =
        readStep .externalService Service.fields .new others :=
      readStep_of_agree agree (by decide) (by decide)
    have assignments := Service.loadAssignments_congr (agree.lookup (by decide))
    have path := Service.loadNextPath_congr (agree.lookup (by decide))
    simp only [loadOwn, loadService, Service.loadParts_eq, read, assignments, path]
  | gather =>
    have read : readStep .gather Gather.fields .new entries =
        readStep .gather Gather.fields .new others :=
      readStep_of_agree agree (by decide) (by decide)
    have validation : entries.lookup "validation" = others.lookup "validation" :=
      agree.lookup (by decide)
    have steps : entries.lookup "steps" = others.lookup "steps" := agree.lookup (by decide)
    simp only [loadOwn, loadGather, Gather.loadAnnouncement, Json.storedSteps, Json.get?, read,
      validation, steps]

end Own

/-- A stored step in which entries are changed that are not read: own ones, or in a part of it that
is no prompt. Of what is no step nothing but the kind is read. -/
inductive Unread (vocabulary : Vocabulary) : Json → Json → Prop where
  | own {entries others : Fields} {kind : StepKind} :
      vocabulary.storedKind (.obj entries) = .ok kind → entries.Agree kind.keys others →
      Unread vocabulary (.obj entries) (.obj others)
  | noStep {entries others : Fields} {error : StepError} :
      vocabulary.storedKind (.obj entries) = .error error → entries.Agree ["kind"] others →
      Unread vocabulary (.obj entries) (.obj others)
  | validation {stored other : Json} : vocabulary.storedKind stored = .ok .gather →
      Json.Under "validation" Validation.Unread stored other → Unread vocabulary stored other
  | menu {stored other : Json} : vocabulary.storedKind stored = .ok .gather →
      Json.Under "menu" Menu.Unread stored other → Unread vocabulary stored other
  | collectDigits {stored other : Json} {key : String} :
      vocabulary.storedKind stored = .ok .gather → key ∈ ["collectDigits", "collectdigits"] →
      Json.Under key (Json.Agree CollectDigits.keys) stored other → Unread vocabulary stored other
  | localAudio {stored other : Json} : vocabulary.storedKind stored = .ok .play →
      Json.Under "local" (Json.Agree LocalAudio.keys) stored other → Unread vocabulary stored other
  | remoteAudio {stored other : Json} : vocabulary.storedKind stored = .ok .play →
      Json.Under "remote" (Json.Agree RemoteAudio.keys) stored other →
      Unread vocabulary stored other
  | target {stored other : Json} {key : String} : vocabulary.storedKind stored = .ok .dial →
      key ∈ ["targets", "dialNouns"] → Json.Under key (Json.Item DialTarget.Unread) stored other →
      Unread vocabulary stored other
  | urlParameter {stored other : Json} {key : String} :
      vocabulary.storedKind stored = .ok .externalService → key ∈ ["urlParameters", "urlParams"] →
      Json.Under key (Json.Item (Json.Agree UrlParameter.keys)) stored other →
      Unread vocabulary stored other
  | assignment {stored other : Json} : vocabulary.storedKind stored = .ok .externalService →
      Json.Under "assignments" (Json.Item Assignment.Unread) stored other →
      Unread vocabulary stored other
  | nextPath {stored other : Json} : vocabulary.storedKind stored = .ok .externalService →
      Json.Under "nextValueExtractor" Path.Unread stored other → Unread vocabulary stored other

/-! ### Parts that are not read -/

section Parts

variable {vocabulary : Vocabulary} {entries others : Fields} {stored other : Json}

theorem load_eq_of_agree {kind : StepKind}
    (isKind : vocabulary.storedKind (.obj entries) = .ok kind) (agree : entries.Agree kind.keys others) :
    load vocabulary (.obj entries) = load vocabulary (.obj others) := by
  have isKindToo : vocabulary.storedKind (.obj others) = .ok kind := by
    rw [← isKind]
    refine storedKind_congr vocabulary (agree.lookup ?_).symm
    exact List.mem_append_left _ (by decide)
  rw [load_obj isKind, load_obj isKindToo, loadOwn_of_agree agree]

/-- What is no step is refused for its kind, whatever else it has. -/
theorem load_eq_of_noStep {error : StepError}
    (fails : vocabulary.storedKind (.obj entries) = .error error)
    (agree : entries.Agree ["kind"] others) :
    load vocabulary (.obj entries) = load vocabulary (.obj others) := by
  have failsToo : vocabulary.storedKind (.obj others) = .error error := by
    rw [← fails]
    exact storedKind_congr vocabulary (agree.lookup List.mem_cons_self).symm
  rw [load, load, fails, failsToo]
  rfl

theorem load_eq_of_unread_validation (isGather : vocabulary.storedKind stored = .ok .gather)
    (changed : Json.Under "validation" Validation.Unread stored other) :
    load vocabulary stored = load vocabulary other := by
  refine load_eq_of_validation (fun unread => ?_) Validation.announced_of_unread isGather changed
  obtain ⟨notNull, notNullToo⟩ := unread.ne_null
  rw [Codec.read_nullAs _ notNull, Codec.read_nullAs _ notNullToo]
  exact Validation.read_of_unread unread

/-- Free input may be under its older key. -/
theorem load_eq_of_unread_collectDigits {key : String}
    (isGather : vocabulary.storedKind stored = .ok .gather)
    (isKey : key ∈ ["collectDigits", "collectdigits"])
    (changed : Json.Under key (Json.Agree CollectDigits.keys) stored other) :
    load vocabulary stored = load vocabulary other := by
  have taken : (Gather.fields.find? (·.accepts key)).map (·.name) = some "collectDigits" := by
    rcases List.mem_pair.mp isKey with rfl | rfl <;> rfl
  have apart : known Header.fields key = false ∧ key ∉ ["kind", "steps", "validation"] := by
    rcases List.mem_pair.mp isKey with rfl | rfl <;> decide
  refine load_eq_of_gather_part (fun agree => ?_) apart.1 apart.2 isGather changed
  exact Gather.owns_collectDigits.read_congr taken (Record.orNull_of_agree (by decide) agree)

/-- The targets may be under their older key. -/
theorem load_eq_of_unread_target {key : String} (isDial : vocabulary.storedKind stored = .ok .dial)
    (isKey : key ∈ ["targets", "dialNouns"])
    (changed : Json.Under key (Json.Item DialTarget.Unread) stored other) :
    load vocabulary stored = load vocabulary other := by
  obtain @⟨before, after, value, next, absent, changed⟩ := changed
  have apart : known Dial.fields key = false ∧ known Header.fields key = false ∧ "kind" ≠ key := by
    rcases List.mem_pair.mp isKey with rfl | rfl <;> decide
  obtain ⟨unknown, notHeader, notKind⟩ := apart
  refine load_congr_middle isDial notKind ?_
  rw [loadOwn, loadOwn, loadDial, loadDial, readStep_middle_of_unknown unknown notHeader,
    readStep_middle_of_unknown unknown notHeader]
  simp only [DialTarget.loadAll_storedTargets_of_unread isKey absent changed]

/-- Parameters may be under their older key. -/
theorem load_eq_of_unread_urlParameter {key : String}
    (isCall : vocabulary.storedKind stored = .ok .externalService)
    (isKey : key ∈ ["urlParameters", "urlParams"])
    (changed : Json.Under key (Json.Item (Json.Agree UrlParameter.keys)) stored other) :
    load vocabulary stored = load vocabulary other := by
  have taken : (Service.fields.find? (·.accepts key)).map (·.name) = some "urlParameters" := by
    rcases List.mem_pair.mp isKey with rfl | rfl <;> rfl
  have apart : known Header.fields key = false ∧
      key ∉ ["assignments", "kind", "nextValueExtractor"] := by
    rcases List.mem_pair.mp isKey with rfl | rfl <;> decide
  refine load_eq_of_service_part (fun inArray => ?_) apart.1 apart.2 isCall changed
  exact Service.owns_urlParameters.read_congr taken
    (Codec.nullAs_list_of_item (Record.read_of_agree (by decide)) inArray [])

theorem load_eq_of_unread (unread : Unread vocabulary stored other) :
    load vocabulary stored = load vocabulary other := by
  cases unread with
  | own isKind agree => exact load_eq_of_agree isKind agree
  | noStep fails agree => exact load_eq_of_noStep fails agree
  | validation isGather changed => exact load_eq_of_unread_validation isGather changed
  | menu isGather changed =>
    refine load_eq_of_gather_part (fun unread => ?_) (by decide) (by decide) isGather changed
    exact Gather.owns_menu.read_congr rfl (Menu.orNull_of_unread unread)
  | collectDigits isGather isKey changed =>
    exact load_eq_of_unread_collectDigits isGather isKey changed
  | localAudio isPlay changed =>
    refine load_eq_of_play_part (fun agree => ?_) (by decide) (by decide) isPlay changed
    exact Play.owns_local.read_congr rfl (Record.orNull_of_agree (by decide) agree)
  | remoteAudio isPlay changed =>
    refine load_eq_of_play_part (fun agree => ?_) (by decide) (by decide) isPlay changed
    exact Play.owns_remote.read_congr rfl (Record.orNull_of_agree (by decide) agree)
  | target isDial isKey changed => exact load_eq_of_unread_target isDial isKey changed
  | urlParameter isCall isKey changed =>
    exact load_eq_of_unread_urlParameter isCall isKey changed
  | assignment isCall changed => exact load_eq_of_assignment Assignment.load_of_unread isCall changed
  | nextPath isCall changed => exact load_eq_of_nextPath Path.load_of_unread isCall changed

end Parts

/-- An empty view of a pattern may be null as well. -/
theorem load_eq_of_emptied {vocabulary : Vocabulary} {stored other : Json}
    (isGather : vocabulary.storedKind stored = .ok .gather)
    (emptied : Json.Under "validation" (Validation.form.Changed "iface" PatternView.Emptied) stored
      other) : load vocabulary stored = load vocabulary other := by
  refine load_eq_of_validation (fun changed => ?_) (fun changed => ?_) isGather emptied
  · have read := Record.read_of_changed Validation.owns_view Validation.owns_view_position
      (fun ⟨⟩ => rfl) changed
    rcases changed with ⟨_, _⟩ | ⟨_, _⟩
    · exact read
    · exact read
  · rw [changed.get?_of_other (by decide)]

/-- **Nothing but what is known is read, and what the editor keeps is kept.** Entries under keys that
neither a stored step nor the part of it that they stand in knows make no difference, in any number
and at any depth, nor for the error. In a view of a pattern this holds as long as there is an entry;
an empty one stands for none, as null does. An object that is stored for the editor stands in its
place in the loaded step and in the canonical form of that, whatever it holds. -/
theorem only_known_read (vocabulary : Vocabulary) :
    (∀ stored other, Rewritten vocabulary (Unread vocabulary) stored other →
        load vocabulary stored = load vocabulary other) ∧
      (∀ stored other, vocabulary.storedKind stored = .ok .gather →
        Json.Under "validation" (Validation.form.Changed "iface" PatternView.Emptied) stored other →
          load vocabulary stored = load vocabulary other) ∧
      ∀ stored step place contents, load vocabulary stored = .ok step →
        EditorPlace.Stored vocabulary (.obj contents) place stored →
          place.held? step = some (.obj contents) ∧
            EditorPlace.Stored .standard (.obj contents) place step.canonical := by
  refine ⟨fun _ _ => load_eq_of_rewritten load_eq_of_unread, fun _ _ => load_eq_of_emptied, ?_⟩
  intro stored step place contents loaded isStored
  have isHeld := isStored.held? loaded
  exact ⟨isHeld, EditorPlace.stored_canonical isHeld⟩

/-- Something that no step knows. -/
def note : Fields := [("note", .num (.natural 1))]

/-- A stored pause with something for the editor, among other entries. -/
def notedPause (notes : Fields) : Json :=
  .obj ([("iface", .obj note), ("kind", .str "pause")] ++ notes)

/-- A stored menu with the pause as its prompt, among other entries. -/
def notedMenu (notes inPrompt : Fields) : Json :=
  .obj ([("kind", .str "gather"), ("name", .str "ask")] ++ notes ++
    [("steps", .arr ([] ++ notedPause inPrompt :: []))])

/-- The menu and its prompt, without the notes but for the editor's. -/
def notedStep : Step :=
  .gather (.new .gather "ask") .new
    [.act { Header.new .pause "" with iface := .obj note } (.pause .new)]

/-- Notes are passed over, in the menu and in its prompt, but for what the editor keeps. -/
theorem only_known_read_noted :
    load .standard (notedMenu note note) = load .standard (notedMenu [] []) ∧
      load .standard (notedMenu note note) = .ok notedStep ∧
      (EditorPlace.prompt 0 .own).held? notedStep = some (.obj note) ∧
      EditorPlace.Stored .standard (.obj note) (.prompt 0 .own) notedStep.canonical := by
  obtain ⟨alike, _, kept⟩ := only_known_read .standard
  have inMenu : Unread .standard (notedMenu note note) (notedMenu [] note) := .own rfl rfl
  have inPrompt : Unread .standard (notedPause note) (notedPause []) := .own rfl rfl
  have rewritten : Rewritten .standard (Unread .standard) (notedMenu note note) (notedMenu [] []) :=
    .trans (.here inMenu) (.prompt rfl rfl (.here inPrompt))
  have isStored : EditorPlace.Stored .standard (.obj note) (.prompt 0 .own) (notedMenu note note) :=
    .prompt rfl rfl (.own rfl)
  have loaded : load .standard (notedMenu note note) = .ok notedStep := rfl
  exact ⟨alike _ _ rewritten, loaded, kept _ _ _ _ loaded isStored⟩

/-- A stored menu with a view of its pattern. -/
def viewedMenu (view : Fields) : Json :=
  .obj [("kind", .str "gather"), ("name", .str "ask"), ("validation", .obj [("iface", .obj view)])]

/-- The menu with a view of its pattern. -/
def viewedStep (view : PatternView) : Step :=
  .gather (.new .gather "ask")
    { Gather.new with validation := { Validation.new with view := some view } } []

/-- A note in an empty view of a pattern is not passed over: with it there is a view, and without it
there is none, so that it is made from the pattern. -/
theorem emptyView_read :
    Fields.Agree PatternView.keys [] note ∧
      load .standard (viewedMenu []) = .ok (viewedStep ⟨"", .regex⟩) ∧
      load .standard (viewedMenu note) = .ok (viewedStep .blank) ∧
      load .standard (viewedMenu []) ≠ load .standard (viewedMenu note) := by
  have empty : load .standard (viewedMenu []) = .ok (viewedStep ⟨"", .regex⟩) := rfl
  have noted : load .standard (viewedMenu note) = .ok (viewedStep .blank) := rfl
  refine ⟨by decide, empty, noted, ?_⟩
  rw [empty, noted]
  decide

end Step

end IvrFlow
