import IvrFlow.Proofs.Step.Entries
import IvrFlow.Proofs.Step.Lists

/-!
Null in the place of nested structures and lists that a stored step does not have. In most places,
at every depth, null is as good as nothing (`NullPut`). In two it is refused (`NullRefused`): in the
place of the announcement of a validation, and in that of the hops of a path. So the outcome of
loading is known for all of them (`load_null`).
-/

namespace IvrFlow

open IvrFlow.Field (sets_of sets_optional sets_orNull sets_counter)

/-! ### Fields that own their part -/

theorem Play.owns_local :
    Owns fields "local" [] LocalAudio.form.codec.orNull ({ · with localAudio := · }) :=
  .self sets_orNull rfl rfl <| .other sets_counter rfl rfl <| .other sets_of rfl rfl <|
  .other sets_orNull rfl rfl .nil

theorem Play.owns_remote :
    Owns fields "remote" [] RemoteAudio.form.codec.orNull ({ · with remoteAudio := · }) :=
  .other sets_orNull rfl rfl <| .other sets_counter rfl rfl <| .other sets_of rfl rfl <|
  .self sets_orNull rfl rfl .nil

theorem Gather.owns_menu : Owns fields "menu" [] Menu.form.codec.orNull ({ · with menu := · }) :=
  .other sets_orNull rfl rfl <| .other sets_orNull rfl rfl <| .other sets_orNull rfl rfl <|
  .other sets_of rfl rfl <| .self sets_orNull rfl rfl <| .other sets_of rfl rfl <|
  .other sets_counter rfl rfl <| .other sets_counter rfl rfl <| .other sets_of rfl rfl .nil

theorem Menu.owns_mappings :
    Owns form.fields "mappings" [] ((Codec.list MenuMapping.form.codec).nullAs []).read
      ({ · with mappings := · }) :=
  .self sets_of rfl rfl .nil

namespace Validation

theorem sets_view : viewField.Sets PatternView.form.codec.orEmpty ({ · with view := · }) :=
  sets_optional

theorem owns_pattern :
    Owns form.fields "pattern" [] (Codec.text.nullAs "").read ({ · with pattern := · }) :=
  .other sets_view rfl rfl <| .self sets_of rfl rfl .nil

theorem owns_pattern_position :
    Owns form.positions "pattern" [] (Codec.text.nullAs "").read ({ · with pattern := · }) :=
  .self sets_of rfl rfl <| .other sets_view rfl rfl .nil

theorem owns_view :
    Owns form.fields "iface" [] PatternView.form.codec.orEmpty ({ · with view := · }) :=
  .self sets_view rfl rfl <| .other sets_of rfl rfl .nil

theorem owns_view_position :
    Owns form.positions "iface" [] PatternView.form.codec.orEmpty ({ · with view := · }) :=
  .other sets_of rfl rfl <| .self sets_view rfl rfl .nil

end Validation

/-! ### Nested records -/

/-- The parts of a validation that may be null when it is stored on its own. -/
def Validation.nullableParts : List String := ["pattern", "iface"]

theorem Validation.read_nullPut {name : String} (isPart : name ∈ nullableParts)
    {stored other : Json} (put : form.NullPut name [] stored other) :
    codec.read stored = codec.read other := by
  rcases List.mem_pair.mp isPart with rfl | rfl
  · exact Record.read_eq_of_nullPut owns_pattern rfl owns_pattern_position (by decide) rfl rfl rfl
      put
  · exact Record.read_eq_of_nullPut owns_view rfl owns_view_position (by decide) rfl rfl rfl put

/-- The parts that may be null stand apart from the announcement, which is looked for on its own. -/
theorem Validation.messageStep_nullPut {name : String} (isPart : name ∈ nullableParts)
    {stored other : Json} (put : form.NullPut name [] stored other) :
    stored.get? "messageStep" = other.get? "messageStep" := by
  have different : "messageStep" ≠ name := by
    rcases List.mem_pair.mp isPart with rfl | rfl <;> decide
  cases put with
  | entry put =>
    obtain @⟨entries, _⟩ := put
    exact (Fields.lookup_insert_of_ne .null entries different).symm
  | item _ => rfl

theorem Menu.read_nullPut {stored other : Json} (put : form.NullPut "mappings" [] stored other) :
    form.codec.read stored = form.codec.read other :=
  Record.read_eq_of_nullPut owns_mappings rfl owns_mappings (by decide) rfl rfl rfl put

theorem Assignment.load_nullPut {stored other : Json}
    (put : Json.NullPut "valueExtractor" [] stored other) : load stored = load other := by
  obtain @⟨entries, avoids⟩ := put
  have absent : entries.lookup "valueExtractor" = none :=
    Fields.lookup_eq_none_of_avoids avoids List.mem_cons_self
  have read : form.codec.read (.obj (entries.insert "valueExtractor" .null)) =
      form.codec.read (.obj entries) :=
    Record.readObject_insert_of_unknown (by decide) (by decide) .null entries
  rw [load, load, read, Json.get?, Json.get?, absent, Fields.lookup_insert_self]
  cases located : StoredPart.assignment.locate (form.codec.read (.obj entries)) with
  | error error => rfl
  | ok assignment =>
    have noPath : assignment.path = .empty :=
      path_of_read (StoredPart.locate_eq_ok_iff.mp located)
    show (.ok assignment : Except StepError Assignment) = .ok { assignment with path := .empty }
    rw [← noPath]

/-- Hops are stored in an array, in whose place null is refused. -/
theorem Path.read_nullPut {stored other : Json}
    (put : form.NullPut "operations" ["accessOperations"] stored other) :
    form.codec.read stored = .ok [] ∧
      form.codec.read other = .error (.wrongType .null "a sequence") := by
  cases put with
  | entry put =>
    obtain @⟨entries, avoids⟩ := put
    obtain ⟨before, after, rfl, inserted⟩ := Fields.exists_insert_eq
      (avoids.mono (List.cons_subset_cons "operations" (List.nil_subset _))) .null
    refine ⟨read_of_avoids avoids, ?_⟩
    rw [inserted, read_operations List.mem_cons_self avoids]
    rfl
  | @item items isNext =>
    obtain ⟨earlier, field, later, split, length, _⟩ := Record.exists_field_at isNext
    have one : form.positions.length = 1 := rfl
    rw [split, List.length_append, List.length_cons] at one
    have isEmpty : items = [] := List.eq_nil_of_length_eq_zero (by omega)
    subst isEmpty
    exact ⟨rfl, rfl⟩

theorem Path.load_nullPut {stored other : Json}
    (put : form.NullPut "operations" ["accessOperations"] stored other) :
    load other = .error (.malformed .path (.wrongType .null "a sequence")) := by
  have refused := (read_nullPut put).2
  cases other with
  | null => exact absurd rfl put.ne_null.2
  | bool | num | str | arr | obj =>
    simp only [load, refused]
    rfl

theorem Assignment.load_nullRefused {stored other : Json}
    (changed : Json.Under "valueExtractor"
      (Path.form.NullPut "operations" ["accessOperations"]) stored other) :
    BreaksWith (.malformed .path (.wrongType .null "a sequence")) (load stored) (load other) := by
  obtain @⟨before, after, value, next, absent, put⟩ := changed
  rw [load_middle absent, load_middle absent]
  refine BreaksWith.bind_of_next (fun assignment => BreaksWith.bind (Or.inl ?_) _ _) _
  exact Path.load_nullPut put

/-! ### Own entries of steps -/

/-- The keys under which a kind of step stores nested structures and lists, each with its older
ones. -/
def StepKind.nestedKeys : StepKind → List (String × List String)
  | .gather =>
    [("validation", []), ("menu", []), ("collectDigits", ["collectdigits"]), ("steps", [])]
  | .play => [("local", []), ("remote", [])]
  | .dial => [("targets", [])]
  | .externalService =>
    [("urlParameters", ["urlParams"]), ("assignments", []), ("nextValueExtractor", [])]
  | .say | .redirect | .hangUp | .reject | .pause => []

theorem StepKind.kind_ne_of_mem_nestedKeys (kind : StepKind) {key : String} {aliases : List String}
    (isKey : (key, aliases) ∈ kind.nestedKeys) : "kind" ≠ key := by
  rintro rfl
  have never : ∀ entry ∈ kind.nestedKeys, entry.1 ≠ "kind" := by cases kind <;> decide
  exact never _ isKey rfl

namespace Step

section Own

variable {vocabulary : Vocabulary} {entries : Fields} {key : String} {aliases : List String}

/-- Audio without a source and audio with a source that has not been chosen are normalized alike. -/
theorem loadPlay_insert_null (isKey : (key, aliases) ∈ StepKind.play.nestedKeys)
    (avoids : entries.Avoids (key :: aliases)) :
    (loadOwn vocabulary entries .play >>= fun step => .ok step.normalize) =
      loadOwn vocabulary (entries.insert key .null) .play >>= fun step => .ok step.normalize := by
  simp only [loadOwn, loadPlain, bind_assoc]
  rcases List.mem_pair.mp isKey with same | same <;> cases same
  · exact Play.owns_local.readStep_insert_bind rfl (by decide) avoids none rfl (some .blank)
      rfl fun _ _ => rfl
  · exact Play.owns_remote.readStep_insert_bind rfl (by decide) avoids none rfl (some .blank)
      rfl fun _ _ => rfl

/-- Null has no announcement, and null in another place leaves the one that there is. -/
theorem loadAnnouncement_insert_null (avoids : entries.Avoids [key]) (gather : Gather) :
    gather.loadAnnouncement (entries.insert key .null) = gather.loadAnnouncement entries := by
  have stored : ((entries.insert key .null).lookup "validation").bind (Json.get? "messageStep") =
      (entries.lookup "validation").bind (Json.get? "messageStep") := by
    by_cases same : "validation" = key
    · subst same
      simp [Fields.lookup_eq_none_of_avoids avoids List.mem_cons_self, Json.get?]
    · simp [same]
  rw [Gather.loadAnnouncement, stored, Gather.loadAnnouncement]

theorem loadGather_insert_null (isKey : (key, aliases) ∈ StepKind.gather.nestedKeys)
    (avoids : entries.Avoids (key :: aliases)) :
    (loadOwn vocabulary entries .gather >>= fun step => .ok step.normalize) =
      loadOwn vocabulary (entries.insert key .null) .gather >>= fun step => .ok step.normalize := by
  have isNew : entries.Avoids [key] :=
    avoids.mono (List.cons_subset_cons key (List.nil_subset _))
  have prompts : (Json.obj (entries.insert key .null)).storedSteps =
      (Json.obj entries).storedSteps := by
    have noArray : (entries.lookup key).bind Json.items? = none := by
      rw [Fields.lookup_eq_none_of_avoids isNew List.mem_cons_self]
      rfl
    simp only [Json.storedSteps, Json.get?, Fields.items?_insert_null noArray]
  simp only [loadOwn, prompts, loadGather, bind_assoc, loadAnnouncement_insert_null isNew]
  simp only [StepKind.nestedKeys, List.mem_cons, Prod.mk.injEq, List.not_mem_nil, or_false] at isKey
  rcases isKey with ⟨rfl, rfl⟩ | ⟨rfl, rfl⟩ | ⟨rfl, rfl⟩ | ⟨rfl, rfl⟩
  · exact Gather.owns_validation.readStep_insert_bind rfl (by decide) avoids .new rfl .new rfl
      fun _ _ => rfl
  · refine Gather.owns_menu.readStep_insert_bind rfl (by decide) avoids none rfl (some .blank)
      rfl ?_
    intro header digits
    have announced (menu : Option Menu) :=
      loadAnnouncement_map ({ · with menu := menu }) (fun _ => rfl) (fun _ _ => rfl) entries digits
    dsimp only at announced ⊢
    rw [announced none, announced (some .blank), map_bind, map_bind]
    rfl
  · refine Gather.owns_collectDigits.readStep_insert_bind rfl (by decide) avoids none rfl
      (some .blank) rfl ?_
    intro header digits
    have announced (input : Option CollectDigits) :=
      loadAnnouncement_map ({ · with collectDigits := input }) (fun _ => rfl) (fun _ _ => rfl)
        entries digits
    dsimp only at announced ⊢
    rw [announced none, announced (some .blank), map_bind, map_bind]
    rfl
  · rw [readStep_insert (by decide) (by decide)]

theorem loadService_insert_null_of_avoids
    (isKey : (key, aliases) ∈ StepKind.externalService.nestedKeys)
    (avoids : entries.Avoids (key :: aliases)) :
    loadService entries = loadService (entries.insert key .null) := by
  have isNew : entries.Avoids [key] :=
    avoids.mono (List.cons_subset_cons key (List.nil_subset _))
  have absent : entries.lookup key = none :=
    Fields.lookup_eq_none_of_avoids isNew List.mem_cons_self
  simp only [StepKind.nestedKeys, List.mem_cons, Prod.mk.injEq, List.not_mem_nil, or_false] at isKey
  rcases isKey with ⟨rfl, rfl⟩ | ⟨rfl, rfl⟩ | ⟨rfl, rfl⟩
  · have parts (service : Service) : service.loadParts (entries.insert "urlParameters" .null) =
        service.loadParts entries := by
      simp [Service.loadParts_eq, Service.loadAssignments, Service.loadNextPath]
    simp only [loadService, parts]
    exact Service.owns_urlParameters.readStep_insert_bind rfl (by decide) avoids [] rfl [] rfl
      fun _ _ => rfl
  · exact (loadService_insert_null (by rw [absent]; rfl)).symm
  · rw [loadService, loadService, readStep_insert (by decide) (by decide)]
    cases read : readStep .externalService Service.fields .new entries with
    | error error => rfl
    | ok result =>
      obtain ⟨header, service⟩ := result
      have noPath : service.nextPath = .empty := (parts_of_readService read).2
      have parts : service.loadParts entries =
          service.loadParts (entries.insert "nextValueExtractor" .null) := by
        simp [Service.loadParts_eq, Service.loadAssignments, Service.loadNextPath, absent, noPath,
          Path.load]
      show (service.loadParts entries >>= _) = service.loadParts _ >>= _
      rw [parts]

/-- In the place of its own nested structures and lists, a step may have null as well as nothing. -/
theorem loadOwn_insert_null {kind : StepKind} (isKey : (key, aliases) ∈ kind.nestedKeys)
    (avoids : entries.Avoids (key :: aliases)) :
    (loadOwn vocabulary entries kind >>= fun step => .ok step.normalize) =
      loadOwn vocabulary (entries.insert key .null) kind >>= fun step => .ok step.normalize := by
  cases kind with
  | gather => exact loadGather_insert_null isKey avoids
  | play => exact loadPlay_insert_null isKey avoids
  | dial =>
    cases List.mem_singleton.mp isKey
    have noArray : (entries.lookup "targets").bind Json.items? = none := by
      rw [Fields.lookup_eq_none_of_avoids avoids List.mem_cons_self]
      rfl
    rw [loadOwn, loadOwn, loadDial_insert_null List.mem_cons_self noArray]
  | externalService => rw [loadOwn, loadOwn, loadService_insert_null_of_avoids isKey avoids]
  | say | redirect | hangUp | reject | pause => cases isKey

end Own

/-- A stored step with null in the place of a nested structure or list that it does not have, in one
of the places in which null is as good as nothing. -/
inductive NullPut (vocabulary : Vocabulary) : Json → Json → Prop where
  | own {stored other : Json} {kind : StepKind} {key : String} {aliases : List String} :
      vocabulary.storedKind stored = .ok kind → (key, aliases) ∈ kind.nestedKeys →
      Json.NullPut key aliases stored other → NullPut vocabulary stored other
  | validation {stored other : Json} {name : String} :
      vocabulary.storedKind stored = .ok .gather → name ∈ Validation.nullableParts →
      Json.Under "validation" (Validation.form.NullPut name []) stored other →
      NullPut vocabulary stored other
  | menu {stored other : Json} :
      vocabulary.storedKind stored = .ok .gather →
      Json.Under "menu" (Menu.form.NullPut "mappings" []) stored other →
      NullPut vocabulary stored other
  | assignment {stored other : Json} :
      vocabulary.storedKind stored = .ok .externalService →
      Json.Under "assignments" (Json.Item (Json.NullPut "valueExtractor" [])) stored other →
      NullPut vocabulary stored other

theorem load_eq_of_nullPut {vocabulary : Vocabulary} {stored other : Json}
    (put : NullPut vocabulary stored other) : load vocabulary stored = load vocabulary other := by
  cases put with
  | @own kind key aliases isKind isKey put =>
    obtain @⟨entries, avoids⟩ := put
    have isKindToo : vocabulary.storedKind (.obj (entries.insert key .null)) = .ok kind := by
      rw [storedKind_insert vocabulary (kind.kind_ne_of_mem_nestedKeys isKey), isKind]
    rw [load_obj isKind, load_obj isKindToo]
    exact loadOwn_insert_null isKey avoids
  | validation isKind isPart changed =>
    refine load_eq_of_validation (fun put => ?_) (fun put => ?_) isKind changed
    · obtain ⟨notNull, notNullToo⟩ := put.ne_null
      rw [Codec.read_nullAs _ notNull, Codec.read_nullAs _ notNullToo]
      exact Validation.read_nullPut isPart put
    · rw [Validation.messageStep_nullPut isPart put]
  | menu isKind changed =>
    refine load_eq_of_gather_part (fun put => ?_) (by decide) (by decide) isKind changed
    obtain ⟨notNull, notNullToo⟩ := put.ne_null
    refine Gather.owns_menu.read_congr rfl ?_
    rw [Codec.orNull_of_ne notNull, Codec.orNull_of_ne notNullToo, Menu.read_nullPut put]
  | assignment isKind changed => exact load_eq_of_assignment Assignment.load_nullPut isKind changed

/-! ### Null that is refused -/

/-- A stored step with null in the place of a nested structure or list that it does not have, in one
of the places in which null is refused, with the error that says so. -/
inductive NullRefused (vocabulary : Vocabulary) : StepError → Json → Json → Prop where
  | announcement {stored other : Json} :
      vocabulary.storedKind stored = .ok .gather →
      Json.Under "validation" (Json.NullPut "messageStep" []) stored other →
      NullRefused vocabulary (.malformed (.step .say) .notObject) stored other
  | nextPath {stored other : Json} :
      vocabulary.storedKind stored = .ok .externalService →
      Json.Under "nextValueExtractor" (Path.form.NullPut "operations" ["accessOperations"]) stored
        other →
      NullRefused vocabulary (.malformed .path (.wrongType .null "a sequence")) stored other
  | assignmentPath {stored other : Json} :
      vocabulary.storedKind stored = .ok .externalService →
      Json.Under "assignments" (Json.Item (Json.Under "valueExtractor"
        (Path.form.NullPut "operations" ["accessOperations"]))) stored other →
      NullRefused vocabulary (.malformed .path (.wrongType .null "a sequence")) stored other
  | prompt {entries : Fields} {before after : List Json} {item other : Json} {error : StepError} :
      vocabulary.storedKind (.obj entries) = .ok .gather →
      entries.lookup "steps" = some (.arr (before ++ item :: after)) →
      NullRefused vocabulary error item other →
      NullRefused vocabulary error (.obj entries)
        (.obj (entries.insert "steps" (.arr (before ++ other :: after))))

section Refused

variable {vocabulary : Vocabulary} {before after : Fields} {key : String} {value next : Json}
  {error : StepError}

theorem load_breaks_middle {kind : StepKind}
    (isKind : vocabulary.storedKind (.obj (before ++ (key, value) :: after)) = .ok kind)
    (different : "kind" ≠ key)
    (breaks : BreaksWith error (loadOwn vocabulary (before ++ (key, value) :: after) kind)
      (loadOwn vocabulary (before ++ (key, next) :: after) kind)) :
    BreaksWith error (load vocabulary (.obj (before ++ (key, value) :: after)))
      (load vocabulary (.obj (before ++ (key, next) :: after))) := by
  rw [load_obj isKind, load_obj ((storedKind_middle vocabulary different).symm.trans isKind)]
  exact breaks.bind _ _

end Refused

theorem load_nullRefused {vocabulary : Vocabulary} {error : StepError} {stored other : Json}
    (refused : NullRefused vocabulary error stored other) :
    BreaksWith error (load vocabulary stored) (load vocabulary other) := by
  induction refused with
  | announcement isKind changed =>
    obtain @⟨before, after, value, next, absent, put⟩ := changed
    obtain @⟨inner, avoids⟩ := put
    have read : (Validation.codec.nullAs .new).read (.obj inner) =
        (Validation.codec.nullAs .new).read (.obj (inner.insert "messageStep" .null)) :=
      (Record.readObject_insert_of_unknown (by decide) rfl .null inner).symm
    refine load_breaks_middle isKind (by decide) ?_
    rw [loadOwn, loadOwn]
    refine BreaksWith.bind ?_ _ _
    rw [loadGather, loadGather,
      readStep_congr_middle (by decide) (Gather.owns_validation.read_congr rfl read)]
    refine BreaksWith.bind_of_next (fun result => Or.inl ?_) _
    have null : ((before ++ ("validation", .obj (inner.insert "messageStep" .null)) :: after).lookup
        "validation").bind (Json.get? "messageStep") = some .null := by
      simp [absent, Json.get?]
    simp only [Gather.loadAnnouncement, null]
    rfl
  | nextPath isKind changed =>
    obtain @⟨before, after, value, next, absent, put⟩ := changed
    refine load_breaks_middle isKind (by decide) ?_
    rw [loadOwn_nextPath_middle absent, loadOwn_nextPath_middle absent]
    refine BreaksWith.bind_of_next (fun read => BreaksWith.bind_of_next (fun assignments => ?_) _) _
    exact BreaksWith.bind (Or.inl (Path.load_nullPut put)) _ _
  | assignmentPath isKind changed =>
    obtain @⟨before, after, value, next, absent, changed⟩ := changed
    obtain @⟨earlier, later, item, nextItem, changed⟩ := changed
    refine load_breaks_middle isKind (by decide) ?_
    rw [loadOwn_assignments_middle absent, loadOwn_assignments_middle absent]
    refine BreaksWith.bind_of_next (fun read => BreaksWith.bind ?_ _ _) _
    exact (Assignment.load_nullRefused changed).mapM_middle earlier later
  | prompt isGather found _ ih =>
    rw [load_gather isGather found, load_gather_insert isGather]
    exact BreaksWith.bind_of_next (fun gather => (ih.mapM_middle _ _).bind _ _) _

/-- **Null is as good as nothing, or it is refused.** In the place of most nested structures and
lists that a stored step does not have, null makes no difference, at any depth and in any number. In
the place of the announcement of a validation and of the hops of a path it is refused, with an error
that comes after those that the step has without it. -/
theorem null_absent_or_refused (vocabulary : Vocabulary) :
    (∀ stored other, Rewritten vocabulary (NullPut vocabulary) stored other →
        load vocabulary stored = load vocabulary other) ∧
      ∀ error stored other, NullRefused vocabulary error stored other →
        BreaksWith error (load vocabulary stored) (load vocabulary other) :=
  ⟨fun _ _ => load_eq_of_rewritten load_eq_of_nullPut, fun _ _ _ => load_nullRefused⟩

/-- A stored call of a service that is routed by a path. -/
def routedCall (path : Fields) : Json :=
  .obj ([("kind", .str "externalService"), ("name", .str "look")] ++
    ("nextValueExtractor", .obj path) :: [])

/-- A stored menu with a validation and the call as its prompt. -/
def routedMenu (validation path : Fields) : Json :=
  .obj ([("kind", .str "gather"), ("name", .str "ask"), ("steps", .arr [routedCall path])] ++
    ("validation", .obj validation) :: [])

/-- The menu, with the call of a service as its prompt. -/
def routedMenuStep : Step :=
  .gather (.new .gather "ask")
    { Gather.new with validation := { Validation.new with view := some ⟨"", .regex⟩ } }
    [.act (.new .externalService "look") (.externalService .new)]

theorem null_absent_or_refused_routed :
    load .standard (routedMenu [] []) = .ok routedMenuStep ∧
      load .standard (routedMenu [] []) = load .standard (routedMenu [("pattern", .null)] []) ∧
      load .standard (routedMenu [("messageStep", .null)] []) =
        .error (.malformed (.step .say) .notObject) ∧
      load .standard (routedMenu [] [("operations", .null)]) =
        .error (.malformed .path (.wrongType .null "a sequence")) := by
  have loaded : load .standard (routedMenu [] []) = .ok routedMenuStep := rfl
  have isGather : Vocabulary.standard.storedKind (routedMenu [] []) = .ok .gather := rfl
  have isService : Vocabulary.standard.storedKind (routedCall []) = .ok .externalService := rfl
  have listed : List.lookup "steps" [("kind", .str "gather"), ("name", .str "ask"),
      ("steps", .arr [routedCall []]), ("validation", .obj [])] =
        some (Json.arr ([] ++ routedCall [] :: [])) := rfl
  have noPattern : Validation.form.NullPut "pattern" [] (.obj []) (.obj [("pattern", .null)]) :=
    .entry (.intro (List.forall_mem_nil _))
  have noOperations : Path.form.NullPut "operations" ["accessOperations"] (.obj [])
      (.obj [("operations", .null)]) := .entry (.intro (List.forall_mem_nil _))
  have pattern : NullPut .standard (routedMenu [] []) (routedMenu [("pattern", .null)] []) :=
    .validation isGather List.mem_cons_self (.intro rfl noPattern)
  have announcement : NullRefused .standard (.malformed (.step .say) .notObject) (routedMenu [] [])
      (routedMenu [("messageStep", .null)] []) :=
    .announcement isGather (.intro rfl (.intro (List.forall_mem_nil _)))
  have path : NullRefused .standard (.malformed .path (.wrongType .null "a sequence"))
      (routedMenu [] []) (routedMenu [] [("operations", .null)]) :=
    .prompt isGather listed (.nextPath isService (.intro rfl noOperations))
  obtain ⟨absent, refused⟩ := null_absent_or_refused .standard
  refine ⟨loaded, absent _ _ (.here pattern), ?_, ?_⟩
  · exact (refused _ _ _ announcement).of_eq_ok loaded
  · exact (refused _ _ _ path).of_eq_ok loaded

end Step

end IvrFlow
