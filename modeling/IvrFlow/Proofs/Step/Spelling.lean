import IvrFlow.Proofs.Path.RoundTrip
import IvrFlow.Proofs.Step.Entries
import IvrFlow.Proofs.Step.Loading

/-!
Older spellings. Some entries of stored steps have an older key, and some words an older form.
Putting the newer spelling in the place of an older one, anywhere in a stored step, changes nothing
about what the step is loaded as (`load_eq_ok_iff_of_respelled`). Each part of a step that may have
older spellings has a relation of its own between what is stored and what is respelled, and a lemma
that it is read alike; errors are left aside, since they may come in another order.
-/

namespace IvrFlow

open IvrFlow.Field (sets_of sets_orNull sets_counter)

/-! ### Words -/

/-- A stored value, and the form in which what it is read as is written. -/
inductive Codec.Respelled {α : Type} (codec : Codec α) : Json → Json → Prop where
  | intro {stored : Json} {value : α} : codec.read stored = .ok value →
      Respelled codec stored (codec.write value)

theorem Codec.read_respelled {α : Type} {codec : Codec α} (lossless : codec.Lossless)
    {stored other : Json} (respelled : codec.Respelled stored other) :
    codec.read stored = codec.read other := by
  obtain ⟨read⟩ := respelled
  rw [read, lossless]

/-! ### Paths -/

theorem Hop.owns_kind : Owns form.fields "kind" [] HopKind.codec.read ({ · with kind := · }) :=
  .self sets_of rfl rfl <| .other sets_counter rfl rfl <| .other sets_orNull rfl rfl .nil

theorem Hop.owns_kind_position :
    Owns form.positions "kind" [] HopKind.codec.read ({ · with kind := · }) :=
  .self sets_of rfl rfl <| .other sets_orNull rfl rfl <| .other sets_counter rfl rfl .nil

/-- A stored path with newer spellings: of the key of its hops, or of the kind of a hop. -/
inductive Path.Respelled : Json → Json → Prop where
  | operations {stored other : Json} : Json.Renamed "accessOperations" "operations" stored other →
      Respelled stored other
  | kind {stored other : Json} :
      form.Changed "operations" (Json.Item (Hop.form.Changed "kind" HopKind.codec.Respelled))
        stored other →
      Respelled stored other

/-- Items that are read alike make lists that are read alike. -/
theorem Codec.toOption_list_of_item {α : Type} {item : Codec α} {change : Json → Json → Prop}
    (same : ∀ {value other}, change value other →
      (item.read value).toOption = (item.read other).toOption)
    {stored other : Json} (changed : Json.Item change stored other) :
    ((Codec.list item).read stored).toOption = ((Codec.list item).read other).toOption := by
  obtain ⟨isChange⟩ := changed
  exact toOption_mapM_middle (same isChange) _ _

namespace Path

theorem toOption_read_respelled {stored other : Json} (respelled : Respelled stored other) :
    (form.codec.read stored).toOption = (form.codec.read other).toOption := by
  cases respelled with
  | operations renamed =>
    exact Record.toOption_read_of_renamed owns_operations (by decide) rfl renamed
  | kind changed =>
    refine Record.toOption_read_of_changed owns_operations owns_operations ?_ changed
    refine Codec.toOption_list_of_item (Record.toOption_read_of_changed Hop.owns_kind
      Hop.owns_kind_position fun respelled => ?_)
    rw [Codec.read_respelled Hop.lossless_kind respelled]

theorem Respelled.ne_null {stored other : Json} (respelled : Respelled stored other) :
    stored ≠ .null ∧ other ≠ .null := by
  rcases respelled with ⟨⟨_⟩⟩ | ⟨⟨_, _⟩⟩ <;> exact ⟨nofun, nofun⟩

theorem toOption_load_respelled {stored other : Json} (respelled : Respelled stored other) :
    (load stored).toOption = (load other).toOption := by
  obtain ⟨notNull, notNullToo⟩ := respelled.ne_null
  rw [load_of_ne notNull, load_of_ne notNullToo, toOption_bind, toOption_bind,
    StoredPart.toOption_locate, StoredPart.toOption_locate, toOption_read_respelled respelled]

end Path

/-! ### Assignments -/

namespace Assignment

theorem owns_destination :
    Owns form.fields "destinationVariable" ["destVariable"] Codec.text.read
      ({ · with destination := · }) :=
  .self sets_of rfl rfl <| .other sets_of rfl rfl .nil

theorem owns_scope : Owns form.fields "scope" [] Scope.codec.read ({ · with scope := · }) :=
  .other sets_of rfl rfl <| .self sets_of rfl rfl .nil

/-- A stored assignment with newer spellings: of the key of its variable, of its scope, or in its
path. -/
inductive Respelled : Json → Json → Prop where
  | destination {stored other : Json} :
      Json.Renamed "destVariable" "destinationVariable" stored other → Respelled stored other
  | scope {stored other : Json} :
      form.Changed "scope" Scope.codec.Respelled stored other → Respelled stored other
  | path {stored other : Json} :
      Json.Under "valueExtractor" Path.Respelled stored other → Respelled stored other

theorem toOption_load_respelled {stored other : Json} (respelled : Respelled stored other) :
    (load stored).toOption = (load other).toOption := by
  have alike : ∀ {stored other : Json},
      (form.codec.read stored).toOption = (form.codec.read other).toOption →
      stored.get? "valueExtractor" = other.get? "valueExtractor" →
      (load stored).toOption = (load other).toOption := by
    intro stored other read path
    rw [load, load, path, toOption_bind, toOption_bind, StoredPart.toOption_locate,
      StoredPart.toOption_locate, read]
  cases respelled with
  | destination renamed =>
    refine alike (Record.toOption_read_of_renamed owns_destination (by decide) rfl renamed) ?_
    obtain ⟨_⟩ := renamed
    exact Fields.lookup_renamed (by decide) (by decide)
  | scope changed =>
    refine alike (Record.toOption_read_of_changed owns_scope owns_scope ?_ changed)
      (changed.get?_of_other (by decide))
    intro value next respelled
    rw [Codec.read_respelled lossless_scope respelled]
  | path changed =>
    obtain @⟨before, after, value, next, absent, respelled⟩ := changed
    rw [load_middle absent, load_middle absent]
    simp only [toOption_bind, Path.toOption_load_respelled respelled]

end Assignment

/-! ### Steps -/

theorem CollectDigits.owns_scope :
    Owns form.fields "scope" [] Scope.codec.read ({ · with scope := · }) :=
  .other sets_of rfl rfl <| .other sets_of rfl rfl <| .self sets_of rfl rfl .nil

theorem Gather.owns_gatherType :
    Owns fields "gatherType" [] GatherType.codec.read ({ · with gatherType := · }) :=
  .other sets_orNull rfl rfl <| .other sets_orNull rfl rfl <| .other sets_orNull rfl rfl <|
  .self sets_of rfl rfl <| .other sets_orNull rfl rfl <| .other sets_of rfl rfl <|
  .other sets_counter rfl rfl <| .other sets_counter rfl rfl <| .other sets_of rfl rfl .nil

theorem CollectDigits.toOption_orNull_respelled {stored other : Json}
    (respelled : form.Changed "scope" Scope.codec.Respelled stored other) :
    (form.codec.orNull stored).toOption = (form.codec.orNull other).toOption := by
  have notNull : stored ≠ .null ∧ other ≠ .null := by
    rcases respelled with ⟨_, _⟩ | ⟨_, _⟩ <;> exact ⟨nofun, nofun⟩
  have read : (form.codec.read stored).toOption = (form.codec.read other).toOption := by
    refine Record.toOption_read_of_changed owns_scope owns_scope ?_ respelled
    intro value next respelled
    rw [Codec.read_respelled Assignment.lossless_scope respelled]
  rw [Codec.orNull_of_ne notNull.1, Codec.orNull_of_ne notNull.2, toOption_bind, toOption_bind,
    read]

namespace Step

section Alike

variable {vocabulary : Vocabulary} {entries others : Fields}

theorem toOption_load_congr {kind : StepKind}
    (isKind : vocabulary.storedKind (.obj entries) = .ok kind)
    (word : entries.lookup "kind" = others.lookup "kind")
    (same : (loadOwn vocabulary entries kind).toOption =
      (loadOwn vocabulary others kind).toOption) :
    (load vocabulary (.obj entries)).toOption = (load vocabulary (.obj others)).toOption := by
  rw [load_obj isKind, load_obj ((storedKind_congr vocabulary word).symm.trans isKind),
    toOption_bind, toOption_bind, same]

/-- The list of targets may have its older key, if the newer one is not there. -/
theorem loadDial_renamed {policy : TargetPolicy} {before after : Fields} {value : Json}
    (avoids : Fields.Avoids ["targets", "dialNouns"] (before ++ after)) :
    loadDial policy (before ++ ("dialNouns", value) :: after) =
      loadDial policy (Fields.insert "targets" value (before ++ after)) := by
  have noTargets : (before ++ after).lookup "targets" = none :=
    Fields.lookup_eq_none_of_avoids avoids List.mem_cons_self
  have noNouns : (before ++ after).lookup "dialNouns" = none :=
    Fields.lookup_eq_none_of_avoids avoids (List.mem_cons_of_mem _ List.mem_cons_self)
  have notBefore : before.lookup "dialNouns" = none := by
    rw [List.lookup_append] at noNouns
    exact (Option.or_eq_none_iff.mp noNouns).1
  have targets : Dial.storedTargets (before ++ ("dialNouns", value) :: after) =
      Dial.storedTargets (Fields.insert "targets" value (before ++ after)) := by
    simp [Dial.storedTargets, noTargets, notBefore, noNouns]
  rw [loadDial, loadDial, readStep_middle_of_unknown (by decide) (by decide),
    readStep_insert (by decide) (by decide), targets]

theorem toOption_loadGather_congr
    (read : (readStep .gather Gather.fields .new entries).toOption =
      (readStep .gather Gather.fields .new others).toOption)
    (validation : entries.lookup "validation" = others.lookup "validation")
    (steps : entries.lookup "steps" = others.lookup "steps") :
    (loadOwn vocabulary entries .gather).toOption =
      (loadOwn vocabulary others .gather).toOption := by
  simp only [loadOwn, loadGather, Gather.loadAnnouncement, Json.storedSteps, Json.get?, validation,
    steps, toOption_bind, read]

theorem toOption_loadService_congr
    (read : (readStep .externalService Service.fields .new entries).toOption =
      (readStep .externalService Service.fields .new others).toOption)
    (assignments : entries.lookup "assignments" = others.lookup "assignments")
    (path : entries.lookup "nextValueExtractor" = others.lookup "nextValueExtractor") :
    (loadOwn vocabulary entries .externalService).toOption =
      (loadOwn vocabulary others .externalService).toOption := by
  simp only [loadOwn, loadService, Service.loadParts_eq, Service.loadAssignments_congr assignments,
    Service.loadNextPath_congr path, toOption_bind, read]

end Alike

/-- A stored step with a newer spelling in the place of an older one, in one of its own entries or
in a part of it that is no step. -/
inductive Respelled (vocabulary : Vocabulary) : Json → Json → Prop where
  | targets {stored other : Json} : vocabulary.storedKind stored = .ok .dial →
      Json.Renamed "dialNouns" "targets" stored other → Respelled vocabulary stored other
  | collectDigits {stored other : Json} : vocabulary.storedKind stored = .ok .gather →
      Json.Renamed "collectdigits" "collectDigits" stored other → Respelled vocabulary stored other
  | gatherType {stored other : Json} : vocabulary.storedKind stored = .ok .gather →
      Json.Under "gatherType" GatherType.codec.Respelled stored other →
      Respelled vocabulary stored other
  | scope {stored other : Json} {key : String} : vocabulary.storedKind stored = .ok .gather →
      key ∈ ["collectDigits", "collectdigits"] →
      Json.Under key (CollectDigits.form.Changed "scope" Scope.codec.Respelled) stored other →
      Respelled vocabulary stored other
  | urlParameters {stored other : Json} : vocabulary.storedKind stored = .ok .externalService →
      Json.Renamed "urlParams" "urlParameters" stored other → Respelled vocabulary stored other
  | assignment {stored other : Json} : vocabulary.storedKind stored = .ok .externalService →
      Json.Under "assignments" (Json.Item Assignment.Respelled) stored other →
      Respelled vocabulary stored other
  | nextPath {stored other : Json} : vocabulary.storedKind stored = .ok .externalService →
      Json.Under "nextValueExtractor" Path.Respelled stored other →
      Respelled vocabulary stored other

/-! ### Steps that are loaded alike

Every kind of change is a change of one entry. The other entries are looked up as they are without
the change, and what is read from the changed one is the same. -/

section Respelling

variable {vocabulary : Vocabulary} {stored other : Json}

theorem toOption_load_of_targets (isDial : vocabulary.storedKind stored = .ok .dial)
    (renamed : Json.Renamed "dialNouns" "targets" stored other) :
    (load vocabulary stored).toOption = (load vocabulary other).toOption := by
  obtain @⟨before, after, value, avoids⟩ := renamed
  refine toOption_load_congr isDial (Fields.lookup_renamed (by decide) (by decide)) ?_
  rw [loadOwn, loadOwn, loadDial_renamed avoids]

theorem toOption_load_of_collectDigits (isGather : vocabulary.storedKind stored = .ok .gather)
    (renamed : Json.Renamed "collectdigits" "collectDigits" stored other) :
    (load vocabulary stored).toOption = (load vocabulary other).toOption := by
  obtain @⟨before, after, value, avoids⟩ := renamed
  refine toOption_load_congr isGather (Fields.lookup_renamed (by decide) (by decide)) ?_
  exact toOption_loadGather_congr
    (Gather.owns_collectDigits.toOption_readStep_renamed (by decide) (by decide) avoids)
    (Fields.lookup_renamed (by decide) (by decide))
    (Fields.lookup_renamed (by decide) (by decide))

theorem toOption_load_of_gatherType (isGather : vocabulary.storedKind stored = .ok .gather)
    (changed : Json.Under "gatherType" GatherType.codec.Respelled stored other) :
    (load vocabulary stored).toOption = (load vocabulary other).toOption := by
  obtain @⟨before, after, value, next, absent, respelled⟩ := changed
  have read := Codec.read_respelled Gather.lossless_gatherType respelled
  refine toOption_load_congr isGather (Fields.lookup_changed (by decide)) ?_
  refine toOption_loadGather_congr ?_ (Fields.lookup_changed (by decide))
    (Fields.lookup_changed (by decide))
  rw [readStep_congr_middle (by decide) (Gather.owns_gatherType.read_congr rfl read)]

/-- Free input may be under its older key, whichever scope it has. -/
theorem toOption_load_of_scope {key : String}
    (isGather : vocabulary.storedKind stored = .ok .gather)
    (isKey : key ∈ ["collectDigits", "collectdigits"])
    (changed : Json.Under key (CollectDigits.form.Changed "scope" Scope.codec.Respelled)
      stored other) :
    (load vocabulary stored).toOption = (load vocabulary other).toOption := by
  obtain @⟨before, after, value, next, absent, respelled⟩ := changed
  have taken : (Gather.fields.find? (·.accepts key)).map (·.name) = some "collectDigits" := by
    rcases List.mem_pair.mp isKey with rfl | rfl <;> rfl
  have apart : known Header.fields key = false ∧
      "kind" ≠ key ∧ "validation" ≠ key ∧ "steps" ≠ key := by
    rcases List.mem_pair.mp isKey with rfl | rfl <;> decide
  obtain ⟨notHeader, notKind, notValidation, notSteps⟩ := apart
  have read := CollectDigits.toOption_orNull_respelled respelled
  refine toOption_load_congr isGather (Fields.lookup_changed notKind) ?_
  exact toOption_loadGather_congr
    (toOption_readStep_congr_middle notHeader
      (Gather.owns_collectDigits.toOption_read_congr taken read))
    (Fields.lookup_changed notValidation) (Fields.lookup_changed notSteps)

theorem toOption_load_of_urlParameters
    (isCall : vocabulary.storedKind stored = .ok .externalService)
    (renamed : Json.Renamed "urlParams" "urlParameters" stored other) :
    (load vocabulary stored).toOption = (load vocabulary other).toOption := by
  obtain @⟨before, after, value, avoids⟩ := renamed
  refine toOption_load_congr isCall (Fields.lookup_renamed (by decide) (by decide)) ?_
  exact toOption_loadService_congr
    (Service.owns_urlParameters.toOption_readStep_renamed (by decide) (by decide) avoids)
    (Fields.lookup_renamed (by decide) (by decide))
    (Fields.lookup_renamed (by decide) (by decide))

theorem toOption_load_of_assignment
    (isCall : vocabulary.storedKind stored = .ok .externalService)
    (changed : Json.Under "assignments" (Json.Item Assignment.Respelled) stored other) :
    (load vocabulary stored).toOption = (load vocabulary other).toOption := by
  obtain @⟨before, after, value, next, absent, changed⟩ := changed
  obtain @⟨earlier, later, item, nextItem, respelled⟩ := changed
  have alike := toOption_mapM_middle (Assignment.toOption_load_respelled respelled) earlier later
  refine toOption_load_congr isCall (Fields.lookup_changed (by decide)) ?_
  rw [loadOwn_assignments_middle absent, loadOwn_assignments_middle absent]
  simp only [toOption_bind, alike]

theorem toOption_load_of_nextPath
    (isCall : vocabulary.storedKind stored = .ok .externalService)
    (changed : Json.Under "nextValueExtractor" Path.Respelled stored other) :
    (load vocabulary stored).toOption = (load vocabulary other).toOption := by
  obtain @⟨before, after, value, next, absent, respelled⟩ := changed
  refine toOption_load_congr isCall (Fields.lookup_changed (by decide)) ?_
  rw [loadOwn_nextPath_middle absent, loadOwn_nextPath_middle absent]
  simp only [toOption_bind, Path.toOption_load_respelled respelled]

/-- A step with one newer spelling is loaded alike. -/
theorem toOption_load_respelled (respelled : Respelled vocabulary stored other) :
    (load vocabulary stored).toOption = (load vocabulary other).toOption := by
  cases respelled with
  | targets isDial renamed => exact toOption_load_of_targets isDial renamed
  | collectDigits isGather renamed => exact toOption_load_of_collectDigits isGather renamed
  | gatherType isGather changed => exact toOption_load_of_gatherType isGather changed
  | scope isGather isKey changed => exact toOption_load_of_scope isGather isKey changed
  | urlParameters isCall renamed => exact toOption_load_of_urlParameters isCall renamed
  | assignment isCall changed => exact toOption_load_of_assignment isCall changed
  | nextPath isCall changed => exact toOption_load_of_nextPath isCall changed

end Respelling

end Step

end IvrFlow
