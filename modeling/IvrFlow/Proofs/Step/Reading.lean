import IvrFlow.Proofs.Record.Frame
import IvrFlow.Proofs.Step.NormalForm
import IvrFlow.Step.Load

/-!
Reading back the parts of a stored step. Among its entries the own ones are found as they were
written, whatever header stands between them; then follows, kind by kind, what the own fields give
when they are read into a new step.
-/

namespace IvrFlow

/-! ### Stored entries -/

namespace Header

/-- The keys that every stored step has. -/
def keys : List String := ["iface", "kind", "label", "name", "title"]

@[simp] theorem mem_keys {key : String} : key ∈ keys ↔
    key = "iface" ∨ key = "kind" ∨ key = "label" ∨ key = "name" ∨ key = "title" := by
  simp [keys]

/-- The entries of a stored step: its own ones, those of its header, and its kind. -/
def entries (kind : StepKind) (header : Header) (own : Fields) : Fields :=
  (header.addTo own).insert "kind" (.str kind.word)

@[simp] theorem lookup_entries_of_notMem {key : String} (other : key ∉ keys) (kind : StepKind)
    (header : Header) (own : Fields) : (header.entries kind own).lookup key = own.lookup key := by
  simp only [mem_keys, not_or] at other
  obtain ⟨iface, kindKey, label, name, title⟩ := other
  simp [entries, addTo, iface, kindKey, label, name, title]

/-- The entries under chosen keys that no header has are the own ones. -/
theorem under_entries {chosen : String → Bool} (others : ∀ key ∈ keys, chosen key = false)
    (kind : StepKind) (header : Header) (own : Fields) :
    (header.entries kind own).under chosen = own.under chosen := by
  simp only [entries, addTo]
  rw [Fields.under_insert_of_not _ (others "kind" (by decide)),
    Fields.under_insert_of_not _ (others "title" (by decide)),
    Fields.under_insert_of_not _ (others "name" (by decide)),
    Fields.under_insert_of_not _ (others "label" (by decide)),
    Fields.under_insert_of_not _ (others "iface" (by decide))]

/-- A header is read back from among the own entries of a step. -/
theorem readFields_entries (kind : StepKind) (header : Header) {own : Fields} (sorted : own.Sorted)
    (avoids : own.Avoids keys) :
    readFields fields [] blank (header.entries kind own) = .ok header := by
  have onlyKeys : ∀ key, known fields key = true → key ∈ keys := by
    intro key isKnown
    obtain ⟨field, member, accepts⟩ := List.any_eq_true.mp isKnown
    simp only [fields, List.mem_cons, List.not_mem_nil, or_false] at member
    rcases member with rfl | rfl | rfl | rfl <;>
      simp_all [Field.accepts, Field.of, keys]
  have iface := Fields.sorted_insert sorted "iface" header.iface
  have label := Fields.sorted_insert iface "label" (.str header.label)
  have name := Fields.sorted_insert label "name" (.str header.name)
  have written : (header.entries kind own).under (known fields) =
      [("iface", header.iface), ("label", .str header.label), ("name", .str header.name),
        ("title", .str header.title)] := by
    simp only [entries, addTo]
    rw [Fields.under_insert_of_not _ (by decide), Fields.under_insert_of_chosen _ (by decide) name,
      Fields.under_insert_of_chosen _ (by decide) label,
      Fields.under_insert_of_chosen _ (by decide) iface,
      Fields.under_insert_of_chosen _ (by decide) sorted,
      Fields.under_eq_nil_of_avoids avoids onlyKeys]
    rfl
  rw [← readFields_under, written]
  rfl

end Header

namespace Step

/-- Under keys that no header has, the canonical form of a step shows its own entries. -/
@[simp] theorem get?_canonical_act {key : String} (own : key ∉ Header.keys) (header : Header)
    (action : Action) :
    (act header action).canonical.get? key = action.normalize.prune.entries.lookup key := by
  rw [canonical]
  exact Header.lookup_entries_of_notMem own _ _ _

@[simp] theorem get?_canonical_gather {key : String} (own : key ∉ Header.keys) (header : Header)
    (digits : Gather) (prompts : List Step) :
    (gather header digits prompts).canonical.get? key =
      (digits.normalize.prune.entries (prompts.map canonical)).lookup key := by
  rw [canonical, canonicalAll_eq_map]
  exact Header.lookup_entries_of_notMem own _ _ _

/-- A gather step holds the canonical forms of its prompts. -/
theorem get?_steps_canonical (header : Header) (digits : Gather) (prompts : List Step) :
    (gather header digits prompts).canonical.get? "steps" =
      some (.arr (prompts.map canonical)) := by
  simp

end Step

/-- A stored step is read as its header and as what its own entries give. -/
theorem readStep_entries {α : Type} {fields : List (Field α)} {source blank result : α}
    {own : Fields} (kind : StepKind) (header : Header) (inOrder : InOrder fields)
    (others : ∀ key ∈ Header.keys, known fields key = false) (sorted : own.Sorted)
    (avoids : own.Avoids Header.keys)
    (written : own.under (known fields) = writeFields fields source)
    (reread : rereadAll fields source blank = .ok result) :
    readStep kind fields blank (header.entries kind own) = .ok (header, result) := by
  have body : readFields fields [] blank (header.entries kind own) = .ok result := by
    rw [readFields_of_under inOrder ((Header.under_entries others kind header own).trans written)]
    exact reread
  rw [readStep, body, header.readFields_entries kind sorted avoids]
  rfl

/-- A step whose own entries are those of its fields and nothing else. -/
theorem readStep_writeFields {α : Type} {fields : List (Field α)} {source blank result : α}
    (kind : StepKind) (header : Header) (inOrder : InOrder fields)
    (others : ∀ key ∈ Header.keys, known fields key = false)
    (reread : rereadAll fields source blank = .ok result) :
    readStep kind fields blank (header.entries kind (writeFields fields source)) =
      .ok (header, result) :=
  readStep_entries kind header inOrder others (sorted_writeFields inOrder)
    (avoids_writeFields_of_unknown others) (under_known_writeFields fields source) reread

/-! ### Speech, handover and waiting -/

@[simp] theorem Say.reread (say : Say) : rereadAll Say.fields say .new = .ok say := by
  simp [Say.fields, Say.new]

@[simp] theorem Redirect.reread (redirect : Redirect) :
    rereadAll Redirect.fields redirect .new = .ok redirect := by
  simp [Redirect.fields, Redirect.new]

@[simp] theorem Reject.reread (reject : Reject) :
    rereadAll Reject.fields reject .new = .ok reject := by
  simp [Reject.fields, Reject.new]

@[simp] theorem Pause.reread (pause : Pause) : rereadAll Pause.fields pause .new = .ok pause := by
  simp [Pause.fields, Pause.new]

/-- **An announcement is read back in its normal form.** -/
@[simp] theorem Announcement.load_canonical (announcement : Announcement) :
    load announcement.canonical = .ok announcement.normalize := by
  have read := readStep_writeFields .say (announcement.header.normalize .say) (by decide) (by decide)
    announcement.say.normalize.reread
  exact bind_eq_ok_iff.mpr ⟨_, read, congrArg Except.ok announcement.normalize_normalize⟩

/-! ### Audio -/

@[simp] theorem AudioSource.lossless_codec : AudioSource.codec.Lossless :=
  Codec.lossless_word fun source => by cases source <;> rfl

@[simp] theorem LocalAudio.lossless_codec : LocalAudio.form.codec.Lossless :=
  Record.lossless_codec (by decide) (fun _ => by simp [LocalAudio.form]) rfl

@[simp] theorem RemoteAudio.lossless_codec : RemoteAudio.form.codec.Lossless :=
  Record.lossless_codec (by decide) (fun _ => by simp [RemoteAudio.form]) rfl

/-- The source that is not chosen is not stored, and is read back as on a new step. -/
@[simp] theorem Play.reread (play : Play) :
    rereadAll Play.fields play.normalize.prune .new = .ok play.normalize.settle := by
  obtain ⟨source, repeats, localAudio, remoteAudio⟩ := play
  cases source <;> simp [Play.fields, Play.normalize, Play.prune, Play.settle, Play.new]

/-! ### Dialling -/

@[simp] theorem NumberTarget.reread (target : NumberTarget) :
    rereadAll NumberTarget.fields target .blank = .ok target := by
  simp [NumberTarget.fields, NumberTarget.blank]

@[simp] theorem ClientTarget.reread (target : ClientTarget) :
    rereadAll ClientTarget.fields target .blank = .ok target := by
  simp [ClientTarget.fields, ClientTarget.blank]

@[simp] theorem ConferenceTarget.reread (target : ConferenceTarget) :
    rereadAll ConferenceTarget.fields target .blank = .ok target := by
  simp [ConferenceTarget.fields, ConferenceTarget.blank]

@[simp] theorem SipTarget.reread (target : SipTarget) :
    rereadAll SipTarget.fields target .blank = .ok target := by
  simp [SipTarget.fields]

namespace DialTarget

/-- The entries of a target are read back as the target, whatever stands there for its type. -/
theorem readEntries_insert (target : DialTarget) (stored : Json) :
    readEntries (target.entries.insert "dialType" stored) target.dialType = .ok target := by
  cases target with
  | number | client | conference | sipUri =>
    simp (disch := decide) only [readEntries, entries, dialType, readFields_insert,
      NumberTarget.reread, ClientTarget.reread, ConferenceTarget.reread, SipTarget.reread]
    rfl

/-- A stored target has the word for its type. -/
@[simp] theorem typeWord_toJson (target : DialTarget) :
    typeWord target.toJson = target.dialType.word := by
  simp [typeWord, toJson, Json.get?, Json.text?]

/-- The word for a type is the tag of the targets of that type. -/
theorem readTagged_word (dialType : DialType) (entries : Fields) :
    readTagged dialType.word entries = readEntries entries dialType := by
  have tagged : Codec.wordValue tags dialType.word = .ok dialType := by cases dialType <;> rfl
  rw [readTagged, tagged]
  rfl

/-- A stored target with the word for a type is read as a target of that type. -/
theorem load?_of_typeWord {entries : Fields} {dialType : DialType}
    (named : typeWord (.obj entries) = dialType.word) :
    load? (.obj entries) = (StoredPart.target.locate (readEntries entries dialType)).map some := by
  rw [load?, named, DialType.ofWord?_word, readTagged_word]
  rfl

@[simp] theorem load?_toJson (target : DialTarget) : load? target.toJson = .ok (some target) := by
  rw [toJson, load?_of_typeWord (typeWord_toJson target), readEntries_insert]
  rfl

/-- Stored targets are read back in order. None is of an unknown type, so the policy is not asked. -/
@[simp] theorem loadAll_toJson (policy : TargetPolicy) (step : String) :
    ∀ targets : List DialTarget, loadAll policy step (targets.map toJson) = .ok targets
  | [] => rfl
  | target :: rest => by
    have others := loadAll_toJson policy step rest
    simp only [List.map_cons, loadAll, load?_toJson, others, ok_bind]
    rfl

end DialTarget

namespace Dial

theorem reread (dial : Dial) :
    rereadAll Dial.fields dial .new = .ok { dial with targets := [] } := by
  simp [Dial.fields, Dial.new]

@[simp] theorem storedTargets_entries (header : Header) (dial : Dial) :
    storedTargets (header.entries .dial dial.entries) = dial.targets.map DialTarget.toJson := by
  simp [storedTargets, Json.items?]

end Dial

/-- **A dial step is read back with all its targets, whatever the policy.** -/
theorem Step.loadDial_entries (policy : TargetPolicy) (header : Header) (dial : Dial) :
    loadDial policy (header.entries .dial dial.entries) = .ok (.act header (.dial dial)) := by
  have inOrder : InOrder Dial.fields := by decide
  have read : readStep .dial Dial.fields .new (header.entries .dial dial.entries) =
      .ok (header, { dial with targets := [] }) := by
    refine readStep_entries .dial header inOrder (by decide)
      (Fields.sorted_insert (sorted_writeFields inOrder) _ _)
      (Fields.avoids_insert _ (avoids_writeFields_of_unknown (by decide)) (by decide)) ?_ dial.reread
    rw [Dial.entries, Fields.under_insert_of_not _ (by decide), under_known_writeFields]
  rw [loadDial, read, Dial.storedTargets_entries]
  show (do
    let targets ← DialTarget.loadAll policy header.name (dial.targets.map DialTarget.toJson)
    return act header (.dial { dial with targets := targets })) = _
  rw [DialTarget.loadAll_toJson]
  rfl

/-! ### External services -/

@[simp] theorem UrlParameter.lossless_codec : UrlParameter.form.codec.Lossless :=
  Record.lossless_codec (by decide) (fun _ => by simp [UrlParameter.form]) rfl

namespace Service

@[simp] theorem lossless_nextType : NextType.codec.Lossless :=
  Codec.lossless_word fun nextType => by cases nextType <;> rfl

theorem reread (service : Service) :
    rereadAll Service.fields service .new =
      .ok { service with assignments := [], nextPath := .empty } := by
  have urlParameters : (Codec.nullAs [] (.list UrlParameter.form.codec)).Lossless := by simp
  simp [Service.fields, Service.new, urlParameters]

/-- The paths of a call: those of its assignments, and the one to the next step. -/
def paths (service : Service) : List Path :=
  service.assignments.map (·.path) ++ [service.nextPath]

theorem loadParts_entries (header : Header) {service : Service} (start : Service)
    (sound : ∀ path ∈ service.paths, path.Sound) :
    start.loadParts (header.entries .externalService service.entries) =
      .ok { start with
        assignments := service.assignments.map Assignment.settle
        nextPath := service.nextPath.settle } := by
  have loaded : (service.assignments.map Assignment.toJson).mapM Assignment.load =
      .ok (service.assignments.map Assignment.settle) := by
    refine mapM_eq_ok_map fun assignment member => Assignment.load_toJson (sound _ ?_)
    exact List.mem_append_left _ (List.mem_map_of_mem member)
  have nextSound : service.nextPath.Sound :=
    sound _ (List.mem_append_right _ (List.mem_singleton_self _))
  simp [loadParts, loaded, nextSound.load_toJson]

end Service

/-- **A call is read back with nothing entered on its paths since their last commits.** -/
theorem Step.loadService_entries (header : Header) {service : Service}
    (sound : ∀ path ∈ service.paths, path.Sound) :
    loadService (header.entries .externalService service.entries) =
      .ok (.act header (.externalService service.settle)) := by
  have inOrder : InOrder Service.fields := by decide
  have read : readStep .externalService Service.fields .new
      (header.entries .externalService service.entries) =
      .ok (header, { service with assignments := [], nextPath := .empty }) := by
    refine readStep_entries .externalService header inOrder (by decide)
      (Fields.sorted_insert (Fields.sorted_insert (sorted_writeFields inOrder) _ _) _ _)
      (Fields.avoids_insert _ (Fields.avoids_insert _ (avoids_writeFields_of_unknown (by decide))
        (by decide)) (by decide)) ?_ service.reread
    rw [Service.entries, Fields.under_insert_of_not _ (by decide),
      Fields.under_insert_of_not _ (by decide), under_known_writeFields]
  rw [loadService, read]
  show (do return act header (.externalService (← Service.loadParts
    (header.entries .externalService service.entries) _))) = _
  rw [Service.loadParts_entries header _ sound]
  rfl

/-! ### Gathering -/

@[simp] theorem MenuMapping.lossless_codec : MenuMapping.form.codec.Lossless :=
  Record.lossless_codec (by decide) (fun _ => by simp [MenuMapping.form]) rfl

@[simp] theorem Menu.lossless_codec : Menu.form.codec.Lossless := by
  have mappings : (Codec.nullAs [] (.list MenuMapping.form.codec)).Lossless := by simp
  exact Record.lossless_codec (by decide) (fun _ => by simp [Menu.form, mappings]) rfl

@[simp] theorem CollectDigits.lossless_codec : CollectDigits.form.codec.Lossless :=
  Record.lossless_codec (by decide) (fun _ => by simp [CollectDigits.form]) rfl

namespace PatternView

@[simp] theorem lossless_type : PatternType.codec.Lossless :=
  Codec.lossless_word fun type => by cases type <;> rfl

@[simp] theorem lossless_codec : form.codec.Lossless :=
  Record.lossless_codec (by decide) (fun _ => by simp [form]) rfl

/-- A view is never stored as the empty object, which would stand for none. -/
@[simp] theorem orEmpty_write (view : PatternView) :
    form.codec.orEmpty (form.codec.write view) = .ok (some view) := by
  show (do return some (← form.codec.read (form.codec.write view))) = _
  rw [lossless_codec]
  rfl

end PatternView

namespace Validation

/-- A stored validation is read back without its announcement, which is read on its own. -/
theorem read_write (validation : Validation) :
    codec.read (codec.write validation) = .ok { validation with announcement := .new } := by
  have own : Fields.under (known form.fields) ((writeFields form.fields validation).insert
      "messageStep" validation.announcement.canonical) = writeFields form.fields validation := by
    rw [Fields.under_insert_of_not _ (by decide), under_known_writeFields]
  refine Record.read_obj_of_under (by decide) own ?_ (by simp [form])
  simp [form, viewField, patternField, new]

@[simp] theorem reread_of {α : Type} {name : String} {aliases : List String} {source target : α}
    {get : α → Validation} {set : α → Validation → α} :
    (Field.of name aliases (.nullAs .new codec) get set).reread source target =
      .ok (set target { get source with announcement := .new }) :=
  Field.reread_of_read ((Codec.read_nullAs .new Json.noConfusion).trans (get source).read_write)

end Validation

namespace Gather

@[simp] theorem lossless_gatherType : GatherType.codec.Lossless :=
  Codec.lossless_word fun gatherType => by cases gatherType <;> rfl

/-- What the digits are not taken for is not stored, and is read back as on a new step. The
announcement is still to be loaded. -/
theorem reread (gather : Gather) :
    rereadAll fields gather.normalize.prune .new =
      .ok { gather.normalize.settle with
        validation := { gather.normalize.validation with announcement := .new } } := by
  obtain ⟨_, _, _, _, _, _, gatherType, _, _⟩ := gather
  cases gatherType <;> simp [fields, normalize, prune, settle, new]

@[simp] theorem lookup_validation_entries (digits : Gather) (prompts : List Json) :
    (digits.entries prompts).lookup "validation" =
      some (Validation.codec.write digits.validation) := by
  have field : (writeFields fields digits).lookup "validation" =
      some (Validation.codec.write digits.validation) :=
    lookup_writeFields (by decide) (List.getElem_mem (by decide : 8 < fields.length))
  simp [entries, field]

theorem loadAnnouncement_entries (header : Header) (digits start : Gather) (prompts : List Json) :
    start.loadAnnouncement (header.entries .gather (digits.entries prompts)) =
      .ok { start with validation :=
        { start.validation with announcement := digits.validation.announcement.normalize } } := by
  have message : (Validation.codec.write digits.validation).get? "messageStep" =
      some digits.validation.announcement.canonical := Fields.lookup_insert_self _ _ _
  simp [loadAnnouncement, message]

end Gather

/-- **What a gather step has besides its prompts is read back settled.** -/
theorem Step.loadGather_entries (header : Header) (digits : Gather) (prompts : List Json) :
    loadGather (header.entries .gather (digits.normalize.prune.entries prompts)) =
      .ok (header, digits.normalize.settle) := by
  have inOrder : InOrder Gather.fields := by decide
  have read : readStep .gather Gather.fields .new
      (header.entries .gather (digits.normalize.prune.entries prompts)) =
      .ok (header, { digits.normalize.settle with
        validation := { digits.normalize.validation with announcement := .new } }) := by
    refine readStep_entries .gather header inOrder (by decide)
      (Fields.sorted_insert (sorted_writeFields inOrder) _ _)
      (Fields.avoids_insert _ (avoids_writeFields_of_unknown (by decide)) (by decide)) ?_
      digits.reread
    rw [Gather.entries, Fields.under_insert_of_not _ (by decide), under_known_writeFields]
  have announcement : digits.normalize.prune.validation.announcement =
      digits.validation.announcement.normalize := by
    obtain ⟨_, _, _, _, _, _, gatherType, _, _⟩ := digits
    cases gatherType <;> rfl
  rw [loadGather, read]
  show (do return (header, ← Gather.loadAnnouncement
    (header.entries .gather (digits.normalize.prune.entries prompts)) _)) = _
  rw [Gather.loadAnnouncement_entries, announcement, Announcement.normalize_normalize]
  obtain ⟨_, _, _, _, _, _, gatherType, _, _⟩ := digits
  cases gatherType <;> rfl

end IvrFlow
