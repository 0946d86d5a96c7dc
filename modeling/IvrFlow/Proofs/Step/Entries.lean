import IvrFlow.Proofs.Record.Entries
import IvrFlow.Proofs.Step.Loading

/-!
Single entries of stored steps. The own fields of a step and its header are read from the same
entries; what stands under a key that the header does not know matters for the own fields alone.
-/

namespace IvrFlow

open IvrFlow.Field (sets_of sets_orNull sets_counter)

/-! ### Fields that own their part -/

theorem Path.owns_operations :
    Owns form.fields "operations" ["accessOperations"] (Codec.list Hop.form.codec).read
      (fun _ hops => hops) :=
  .self sets_of rfl rfl .nil

theorem Gather.owns_collectDigits :
    Owns fields "collectDigits" ["collectdigits"] CollectDigits.form.codec.orNull
      ({ · with collectDigits := · }) :=
  .other sets_orNull rfl rfl <| .self sets_orNull rfl rfl <| .other sets_orNull rfl rfl <|
  .other sets_of rfl rfl <| .other sets_orNull rfl rfl <| .other sets_of rfl rfl <|
  .other sets_counter rfl rfl <| .other sets_counter rfl rfl <| .other sets_of rfl rfl .nil

theorem Gather.owns_validation :
    Owns fields "validation" [] (Validation.codec.nullAs .new).read ({ · with validation := · }) :=
  .other sets_orNull rfl rfl <| .other sets_orNull rfl rfl <| .other sets_orNull rfl rfl <|
  .other sets_of rfl rfl <| .other sets_orNull rfl rfl <| .other sets_of rfl rfl <|
  .other sets_counter rfl rfl <| .other sets_counter rfl rfl <| .self sets_of rfl rfl .nil

theorem Service.owns_urlParameters :
    Owns fields "urlParameters" ["urlParams"]
      ((Codec.list UrlParameter.form.codec).nullAs []).read ({ · with urlParameters := · }) :=
  .other sets_of rfl rfl <| .other sets_of rfl rfl <| .other sets_of rfl rfl <|
  .other sets_of rfl rfl <| .self sets_of rfl rfl .nil

/-! ### Reading steps -/

theorem StoredPart.locate_map {α β : Type} (part : StoredPart) (outcome : Except Fault α)
    (change : α → β) : part.locate (outcome.map change) = (part.locate outcome).map change := by
  cases outcome <;> rfl

@[simp] theorem StoredPart.toOption_locate {α : Type} (part : StoredPart)
    (outcome : Except Fault α) :
    (part.locate outcome).toOption = outcome.toOption := by
  cases outcome <;> rfl

section ReadStep

variable {α β γ : Type} {kind : StepKind} {own : List (Field α)} {blank : α} {key name : String}
  {stored other : Json} {entries before after : Fields}

/-- An entry that another value may stand for is read as with that value. -/
theorem readStep_congr_middle (notHeader : known Header.fields key = false)
    (same : ∀ field, own.find? (·.accepts key) = some field →
      ∀ record, field.read stored record = field.read other record) :
    readStep kind own blank (before ++ (key, stored) :: after) =
      readStep kind own blank (before ++ (key, other) :: after) := by
  rw [readStep, readStep, readFields_congr_middle same, readFields_middle_of_unknown notHeader,
    readFields_middle_of_unknown notHeader]

/-- The same, errors left aside. -/
theorem toOption_readStep_congr_middle (notHeader : known Header.fields key = false)
    (same : ∀ field, own.find? (·.accepts key) = some field →
      ∀ record, (field.read stored record).toOption = (field.read other record).toOption) :
    (readStep kind own blank (before ++ (key, stored) :: after)).toOption =
      (readStep kind own blank (before ++ (key, other) :: after)).toOption := by
  rw [readStep, readStep, StoredPart.toOption_locate, StoredPart.toOption_locate, toOption_bind,
    toOption_bind, toOption_readFields_congr_middle same, readFields_middle_of_unknown notHeader,
    readFields_middle_of_unknown notHeader]

/-- An entry that neither the own fields nor the header know may hold anything. -/
theorem readStep_middle_of_unknown (unknown : known own key = false)
    (notHeader : known Header.fields key = false) :
    readStep kind own blank (before ++ (key, stored) :: after) =
      readStep kind own blank (before ++ after) := by
  rw [readStep, readFields_middle_of_unknown unknown, readFields_middle_of_unknown notHeader]
  rfl

section Owned

variable {aliases : List String} {read : Json → Except Fault β} {set : α → β → α} {value : β}

/-- A part that has no entry stays what it is before, whatever that is. -/
theorem Owns.readStep_set (owns : Owns own name aliases read set)
    (avoids : entries.Avoids (name :: aliases)) :
    readStep kind own (set blank value) entries =
      (readStep kind own blank entries).map fun read => (read.1, set read.2 value) := by
  have passes := fun field isField different => owns.others field isField different value
  rw [readStep, readFields_map passes (owns.lacks avoids), map_bind, readStep,
    ← StoredPart.locate_map]
  cases readFields own [] blank entries with
  | error fault => rfl
  | ok body => cases readFields Header.fields [] Header.blank entries <;> rfl

/-- A new entry of a field that owns a part may be read first. -/
theorem Owns.readStep_insert (owns : Owns own name aliases read set)
    (taken : (own.find? (·.accepts name)).map (·.name) = some name)
    (notHeader : known Header.fields name = false) (avoids : entries.Avoids (name :: aliases))
    (reads : read stored = .ok value) :
    readStep kind own blank (entries.insert name stored) =
      readStep kind own (set blank value) entries := by
  obtain ⟨before, after, rfl, inserted⟩ := Fields.exists_insert_eq
    (avoids.mono (List.cons_subset_cons name (List.nil_subset _))) stored
  rw [readStep, inserted, owns.readFields_middle taken avoids reads,
    readFields_middle_of_unknown notHeader]
  rfl

/-- A new entry makes no difference for what is done alike with what it holds and with what there is
without it. -/
theorem Owns.readStep_insert_bind (owns : Owns own name aliases read set)
    (taken : (own.find? (·.accepts name)).map (·.name) = some name)
    (notHeader : known Header.fields name = false) (avoids : entries.Avoids (name :: aliases))
    (value : β) (reads : read stored = .ok value) (absent : β) (isBlank : set blank absent = blank)
    {next nextToo : Header × α → Except StepError γ}
    (alike : ∀ header record, next (header, set record absent) =
      nextToo (header, set record value)) :
    (readStep kind own blank entries >>= next) =
      readStep kind own blank (entries.insert name stored) >>= nextToo := by
  have without : readStep kind own (set blank absent) entries =
      (readStep kind own blank entries).map fun read => (read.1, set read.2 absent) :=
    owns.readStep_set avoids
  rw [isBlank] at without
  rw [without, owns.readStep_insert taken notHeader avoids reads, owns.readStep_set avoids,
    map_bind, map_bind]
  exact congrArg _ (funext fun read => alike read.1 read.2)

/-- An entry that is moved from an older key to the newer one is read alike, errors left aside. -/
theorem Owns.toOption_readStep_renamed {older : String} (owns : Owns own name [older] read set)
    (taken : ∀ key ∈ [name, older], (own.find? (·.accepts key)).map (·.name) = some name)
    (notHeader : ∀ key ∈ [name, older], known Header.fields key = false)
    (avoids : Fields.Avoids [name, older] (before ++ after)) :
    (readStep kind own blank (before ++ (older, stored) :: after)).toOption =
      (readStep kind own blank (Fields.insert name stored (before ++ after))).toOption := by
  rw [readStep, readStep, StoredPart.toOption_locate, StoredPart.toOption_locate, toOption_bind,
    toOption_bind, owns.toOption_readFields_renamed taken avoids,
    readFields_middle_of_unknown (notHeader older (by simp)),
    readFields_insert_of_unknown (notHeader name (by simp))]

end Owned

end ReadStep

namespace Step

/-- What a gather step announces does not depend on its other parts. -/
theorem loadAnnouncement_map (change : Gather → Gather)
    (keeps : ∀ gather, (change gather).validation = gather.validation)
    (passes : ∀ gather validation, { change gather with validation := validation } =
      change { gather with validation := validation })
    (entries : Fields) (gather : Gather) :
    (change gather).loadAnnouncement entries = (gather.loadAnnouncement entries).map change := by
  rw [Gather.loadAnnouncement, Gather.loadAnnouncement]
  cases (entries.lookup "validation").bind (Json.get? "messageStep") with
  | none => rfl
  | some stored =>
    dsimp only
    cases Announcement.load stored with
    | error error => rfl
    | ok announcement =>
      refine congrArg Except.ok ((passes gather _).trans ?_)
      rw [keeps]

theorem loadAnnouncement_congr {entries others : Fields}
    (same : ((entries.lookup "validation").bind (Json.get? "messageStep")).map Announcement.load =
      ((others.lookup "validation").bind (Json.get? "messageStep")).map Announcement.load)
    (gather : Gather) : gather.loadAnnouncement entries = gather.loadAnnouncement others := by
  rw [Gather.loadAnnouncement, Gather.loadAnnouncement]
  cases stored : (entries.lookup "validation").bind (Json.get? "messageStep") with
  | none =>
    rw [stored, Option.map_none, eq_comm, Option.map_eq_none_iff] at same
    rw [same]
  | some announcement =>
    rw [stored, Option.map_some, eq_comm, Option.map_eq_some_iff] at same
    obtain ⟨other, isOther, loaded⟩ := same
    simp only [isOther, loaded]

/-! ### Entries that are changed -/

section Middle

variable {vocabulary : Vocabulary} {before after : Fields} {key : String} {value other : Json}

theorem storedKind_middle (vocabulary : Vocabulary) (different : "kind" ≠ key) :
    vocabulary.storedKind (.obj (before ++ (key, value) :: after)) =
      vocabulary.storedKind (.obj (before ++ (key, other) :: after)) :=
  storedKind_congr vocabulary (Fields.lookup_changed different)

theorem storedSteps_middle (different : "steps" ≠ key) :
    (Json.obj (before ++ (key, value) :: after)).storedSteps =
      (Json.obj (before ++ (key, other) :: after)).storedSteps := by
  rw [Json.storedSteps, Json.storedSteps, Json.get?, Json.get?, Fields.lookup_changed different]

theorem load_congr_middle {kind : StepKind}
    (isKind : vocabulary.storedKind (.obj (before ++ (key, value) :: after)) = .ok kind)
    (different : "kind" ≠ key)
    (same : loadOwn vocabulary (before ++ (key, value) :: after) kind =
      loadOwn vocabulary (before ++ (key, other) :: after) kind) :
    load vocabulary (.obj (before ++ (key, value) :: after)) =
      load vocabulary (.obj (before ++ (key, other) :: after)) := by
  rw [load_obj isKind, same, load_obj ((storedKind_middle vocabulary different).symm.trans isKind)]

/-- What a gather step has under a key matters for its own field, and for the announcement of its
validation. -/
theorem loadGather_congr_middle (notHeader : known Header.fields key = false)
    (same : ∀ field, Gather.fields.find? (·.accepts key) = some field →
      ∀ record, field.read value record = field.read other record)
    (announced : ((before ++ (key, value) :: after).lookup "validation").bind
        (Json.get? "messageStep") =
      ((before ++ (key, other) :: after).lookup "validation").bind (Json.get? "messageStep")) :
    loadGather (before ++ (key, value) :: after) =
      loadGather (before ++ (key, other) :: after) := by
  rw [loadGather, loadGather, readStep_congr_middle notHeader same]
  simp only [Gather.loadAnnouncement, announced]

/-- A call of a service is loaded as what it has besides, then its assignments one by one, and then
its path. -/
theorem loadOwn_assignments_middle (absent : before.lookup "assignments" = none)
    (items : List Json) :
    loadOwn vocabulary (before ++ ("assignments", .arr items) :: after) .externalService =
      readStep .externalService Service.fields .new (before ++ after) >>= fun read =>
        items.mapM Assignment.load >>= fun assignments =>
          Service.loadNextPath (before ++ after) read.2.nextPath >>= fun path =>
            .ok (.act read.1 (.externalService
              { read.2 with assignments := assignments, nextPath := path })) := by
  rw [loadOwn, loadService, readStep_middle_of_unknown (by decide) (by decide)]
  simp [Service.loadParts_eq, Service.loadAssignments, Service.loadNextPath, absent, Json.items?]
  rfl

theorem loadOwn_nextPath_middle (absent : before.lookup "nextValueExtractor" = none)
    (path : Json) :
    loadOwn vocabulary (before ++ ("nextValueExtractor", path) :: after) .externalService =
      readStep .externalService Service.fields .new (before ++ after) >>= fun read =>
        Service.loadAssignments (before ++ after) read.2.assignments >>= fun assignments =>
          Path.load path >>= fun path =>
            .ok (.act read.1 (.externalService
              { read.2 with assignments := assignments, nextPath := path })) := by
  rw [loadOwn, loadService, readStep_middle_of_unknown (by decide) (by decide)]
  simp [Service.loadParts_eq, Service.loadAssignments, Service.loadNextPath, absent]
  rfl

end Middle

/-! ### Parts that are loaded alike -/

section Parts

variable {vocabulary : Vocabulary} {change : Json → Json → Prop} {key : String}
  {stored other : Json}

/-- A part of a gather step matters as what its field makes of it, if it is none of those that are
loaded on their own. -/
theorem load_eq_of_gather_part
    (same : ∀ {value next}, change value next →
      ∀ field, Gather.fields.find? (·.accepts key) = some field →
        ∀ record, field.read value record = field.read next record)
    (notHeader : known Header.fields key = false)
    (apart : key ∉ ["kind", "steps", "validation"])
    (isGather : vocabulary.storedKind stored = .ok .gather)
    (changed : Json.Under key change stored other) :
    load vocabulary stored = load vocabulary other := by
  simp only [List.mem_cons, List.not_mem_nil, or_false, not_or] at apart
  obtain ⟨notKind, notSteps, notValidation⟩ := apart
  obtain @⟨before, after, value, next, absent, isChange⟩ := changed
  refine load_congr_middle isGather (Ne.symm notKind) ?_
  rw [loadOwn, loadOwn, storedSteps_middle (Ne.symm notSteps),
    loadGather_congr_middle notHeader (same isChange)]
  rw [Fields.lookup_changed (Ne.symm notValidation)]

/-- A validation matters as what its field and its announcement are loaded as. -/
theorem load_eq_of_validation
    (read : ∀ {value next}, change value next →
      (Validation.codec.nullAs .new).read value = (Validation.codec.nullAs .new).read next)
    (announced : ∀ {value next}, change value next →
      (value.get? "messageStep").map Announcement.load =
        (next.get? "messageStep").map Announcement.load)
    (isGather : vocabulary.storedKind stored = .ok .gather)
    (changed : Json.Under "validation" change stored other) :
    load vocabulary stored = load vocabulary other := by
  obtain @⟨before, after, value, next, absent, isChange⟩ := changed
  have readToo : readStep .gather Gather.fields .new (before ++ ("validation", value) :: after) =
      readStep .gather Gather.fields .new (before ++ ("validation", next) :: after) :=
    readStep_congr_middle (by decide) (Gather.owns_validation.read_congr rfl (read isChange))
  have announcedToo (gather : Gather) :
      gather.loadAnnouncement (before ++ ("validation", value) :: after) =
        gather.loadAnnouncement (before ++ ("validation", next) :: after) := by
    refine loadAnnouncement_congr ?_ gather
    rw [Fields.lookup_middle absent, Fields.lookup_middle absent]
    exact announced isChange
  have steps : (Json.obj (before ++ ("validation", value) :: after)).storedSteps =
      (Json.obj (before ++ ("validation", next) :: after)).storedSteps :=
    storedSteps_middle (by decide)
  refine load_congr_middle isGather (by decide) ?_
  simp only [loadOwn, loadGather, readToo, announcedToo, steps]

/-- A part of audio matters as what its field makes of it. -/
theorem load_eq_of_play_part
    (same : ∀ {value next}, change value next →
      ∀ field, Play.fields.find? (·.accepts key) = some field →
        ∀ record, field.read value record = field.read next record)
    (notHeader : known Header.fields key = false) (notKind : "kind" ≠ key)
    (isPlay : vocabulary.storedKind stored = .ok .play)
    (changed : Json.Under key change stored other) :
    load vocabulary stored = load vocabulary other := by
  obtain @⟨before, after, value, next, absent, isChange⟩ := changed
  refine load_congr_middle isPlay notKind ?_
  rw [loadOwn, loadOwn, loadPlain, loadPlain, readStep_congr_middle notHeader (same isChange)]

/-- An assignment matters as what it is loaded as. -/
theorem load_eq_of_assignment
    (same : ∀ {value next}, change value next → Assignment.load value = Assignment.load next)
    (isCall : vocabulary.storedKind stored = .ok .externalService)
    (changed : Json.Under "assignments" (Json.Item change) stored other) :
    load vocabulary stored = load vocabulary other := by
  obtain @⟨before, after, value, next, absent, inArray⟩ := changed
  obtain @⟨earlier, later, item, nextItem, isChange⟩ := inArray
  refine load_congr_middle isCall (by decide) ?_
  rw [loadOwn_assignments_middle absent, loadOwn_assignments_middle absent]
  simp only [List.mapM_append, List.mapM_cons, same isChange]

/-- The path to the next step matters as what it is loaded as. -/
theorem load_eq_of_nextPath
    (same : ∀ {value next}, change value next → Path.load value = Path.load next)
    (isCall : vocabulary.storedKind stored = .ok .externalService)
    (changed : Json.Under "nextValueExtractor" change stored other) :
    load vocabulary stored = load vocabulary other := by
  obtain @⟨before, after, value, next, absent, isChange⟩ := changed
  refine load_congr_middle isCall (by decide) ?_
  rw [loadOwn_nextPath_middle absent, loadOwn_nextPath_middle absent, same isChange]

/-- A part of a call of a service matters as what its field makes of it, if it is none of those that
are loaded on their own. -/
theorem load_eq_of_service_part
    (same : ∀ {value next}, change value next →
      ∀ field, Service.fields.find? (·.accepts key) = some field →
        ∀ record, field.read value record = field.read next record)
    (notHeader : known Header.fields key = false)
    (apart : key ∉ ["assignments", "kind", "nextValueExtractor"])
    (isCall : vocabulary.storedKind stored = .ok .externalService)
    (changed : Json.Under key change stored other) :
    load vocabulary stored = load vocabulary other := by
  simp only [List.mem_cons, List.not_mem_nil, or_false, not_or] at apart
  obtain ⟨notAssignments, notKind, notPath⟩ := apart
  obtain @⟨before, after, value, next, absent, isChange⟩ := changed
  have parts (service : Service) : service.loadParts (before ++ (key, value) :: after) =
      service.loadParts (before ++ (key, next) :: after) := by
    rw [Service.loadParts_eq, Service.loadParts_eq,
      Service.loadAssignments_congr (Fields.lookup_changed (Ne.symm notAssignments)),
      Service.loadNextPath_congr (Fields.lookup_changed (Ne.symm notPath))]
  refine load_congr_middle isCall (Ne.symm notKind) ?_
  rw [loadOwn, loadOwn, loadService, loadService, readStep_congr_middle notHeader (same isChange)]
  simp only [parts]

end Parts

end Step

end IvrFlow
