import IvrFlow.Proofs.Json.Documents
import IvrFlow.Proofs.Step.Format
import IvrFlow.Proofs.Step.Loading

/-!
What canonical forms of loaded steps take over from the document. Whatever is granted to sorted
objects, and to all else but real numbers, holds throughout a canonical form but for what the editor
keeps with the steps; and what is kept has been stored. So if it holds throughout the document, it
holds throughout the canonical form (`throughout_canonical_of_load`).
-/

namespace IvrFlow

/-! ### Properties of stored values -/

/-- A property that all objects with sorted entries have, and all other values but real numbers. -/
def Json.Granted (property : Json → Prop) : Prop :=
  ∀ value, (∀ fields, value = .obj fields → Fields.Sorted fields) →
    (∀ real, value ≠ .num (.real real)) → property value

namespace Json

theorem granted_ordered : Granted fun part => ∀ fields, part = .obj fields → Fields.Sorted fields :=
  fun _ sorted _ => sorted

theorem granted_legible :
    Granted fun part => ∀ real, part = .num (.real real) → (Number.real real).Legible :=
  fun _ _ notReal real isReal => absurd isReal (notReal real)

namespace Granted

variable {property : Json → Prop}

theorem obj (granted : Granted property) {fields : Fields} (sorted : fields.Sorted)
    (each : ∀ entry ∈ fields, entry.2.Throughout property) : (obj fields).Throughout property := by
  refine .intro (granted _ (fun others isObject => ?_) fun _ => Json.noConfusion)
    (forall_parts_obj.mpr each)
  cases isObject
  exact sorted

theorem emptyObject (granted : Granted property) : (Json.obj []).Throughout property :=
  granted.obj List.Pairwise.nil (List.forall_mem_nil _)

theorem arr (granted : Granted property) {items : List Json}
    (each : ∀ item ∈ items, item.Throughout property) : (arr items).Throughout property :=
  .intro (granted _ (fun _ => Json.noConfusion) fun _ => Json.noConfusion) each

theorem str (granted : Granted property) (text : String) : (str text).Throughout property :=
  .intro (granted _ (fun _ => Json.noConfusion) fun _ => Json.noConfusion) fun _ isPart =>
    nomatch isPart

theorem bool (granted : Granted property) (value : Bool) : (bool value).Throughout property :=
  .intro (granted _ (fun _ => Json.noConfusion) fun _ => Json.noConfusion) fun _ isPart =>
    nomatch isPart

theorem natural (granted : Granted property) (value : UInt64) :
    (num (.natural value)).Throughout property :=
  .intro (granted _ (fun _ => Json.noConfusion) fun _ => by simp) fun _ isPart => nomatch isPart

end Granted

end Json

variable {property : Json → Prop}

/-- What is granted holds throughout a formatted value if it does throughout all that is free in
it. -/
theorem Formatted.throughout (granted : Json.Granted property) {stored : Json}
    (formatted : Formatted (Json.Throughout property) stored) : stored.Throughout property := by
  induction formatted with
  | text value => exact granted.str value
  | flag value => exact granted.bool value
  | natural value => exact granted.natural value
  | array formatted ih => exact granted.arr ih
  | object sorted newer formatted ih =>
    refine granted.obj sorted fun entry isEntry => ?_
    by_cases isFree : entry.1 = "iface" ∧ entry.2.Throughout property
    · exact isFree.2
    · exact ih entry isEntry isFree

/-! ### What is kept with one step -/

namespace Header

/-- What a header keeps is one of the entries that it is read from. -/
theorem throughout_iface (granted : Json.Granted property) {entries : Fields}
    (throughout : ∀ entry ∈ entries, entry.2.Throughout property) {header : Header}
    (read : readFields fields [] blank entries = .ok header) :
    header.iface.Throughout property := by
  have preserves : ∀ field ∈ fields, field.Preserves (Json.Throughout property)
      fun header => header.iface.Throughout property := by
    intro field member
    simp only [fields, List.mem_cons, List.not_mem_nil, or_false] at member
    rcases member with rfl | rfl | rfl | rfl
    · intro stored record result isGiven _ succeeds
      cases succeeds
      exact isGiven
    · exact Field.preserves_of fun _ _ before => before
    · exact Field.preserves_of fun _ _ before => before
    · intro stored record result _ before succeeds
      obtain ⟨_, _, same⟩ := bind_eq_ok_iff.mp succeeds
      cases same
      exact before
  exact readFields_preserves preserves throughout granted.emptyObject read

/-- Normalizing keeps what is kept, or puts an empty object in its place. -/
theorem iface_normalize (kind : StepKind) (header : Header) :
    (header.normalize kind).iface = header.iface ∨ (header.normalize kind).iface = .obj [] := by
  simp only [normalize]
  split
  · exact Or.inl rfl
  · exact Or.inr rfl

theorem throughout_iface_normalize (granted : Json.Granted property) {header : Header}
    (throughout : header.iface.Throughout property) (kind : StepKind) :
    (header.normalize kind).iface.Throughout property := by
  rcases header.iface_normalize kind with same | empty
  · rw [same]
    exact throughout
  · rw [empty]
    exact granted.emptyObject

end Header

theorem Announcement.throughout_iface_of_load (granted : Json.Granted property) {stored : Json}
    (throughout : stored.Throughout property) {announcement : Announcement}
    (loaded : load stored = .ok announcement) :
    announcement.header.iface.Throughout property := by
  cases stored with
  | obj entries =>
    obtain ⟨⟨header, say⟩, read, isAnnouncement⟩ := bind_eq_ok_iff.mp loaded
    cases isAnnouncement
    have each := Json.forall_parts_obj.mp throughout.parts
    exact Header.throughout_iface_normalize granted
      (Header.throughout_iface granted each (Step.readStep_eq_ok read).2) .say
  | null | bool | num | str | arr => cases loaded

/-- Reading a validation never gives it an announcement, which is loaded on its own. -/
theorem Validation.announcement_of_read {stored : Json} {validation : Validation}
    (read : (Codec.nullAs .new codec).read stored = .ok validation) :
    validation.announcement = .new := by
  have view : viewField.Preserves (fun _ => True) (·.announcement = .new) :=
    Field.preserves_optional fun _ _ before => before
  have pattern : patternField.Preserves (fun _ => True) (·.announcement = .new) :=
    Field.preserves_of fun _ _ before => before
  have fields : ∀ field ∈ form.fields, field.Preserves (fun _ => True) (·.announcement = .new) :=
    List.forall_mem_cons.mpr ⟨view, List.forall_mem_singleton.mpr pattern⟩
  have positions : ∀ field ∈ form.positions,
      field.Preserves (fun _ => True) (·.announcement = .new) :=
    List.forall_mem_cons.mpr ⟨pattern, List.forall_mem_singleton.mpr view⟩
  by_cases isNull : stored = .null
  · subst isNull
    cases read
    rfl
  · rw [Codec.read_nullAs new isNull] at read
    exact Record.read_preserves fields positions (fun _ _ => trivial) rfl read

namespace Gather

theorem announcement_of_readFields {entries : Fields} {digits : Gather}
    (read : readFields fields [] .new entries = .ok digits) :
    digits.validation.announcement = .new := by
  have preserves : ∀ field ∈ fields,
      field.Preserves (fun _ => True) fun digits => digits.validation.announcement = .new := by
    intro field member
    simp only [fields, List.mem_cons, List.not_mem_nil, or_false] at member
    rcases member with rfl | rfl | rfl | rfl | rfl | rfl | rfl | rfl | rfl
    · exact Field.preserves_optional fun _ _ before => before
    · exact Field.preserves_optional fun _ _ before => before
    · exact Field.preserves_optional fun _ _ before => before
    · exact Field.preserves_of fun _ _ before => before
    · exact Field.preserves_optional fun _ _ before => before
    · exact Field.preserves_of fun _ _ before => before
    · exact Field.preserves_optional fun _ _ before => before
    · exact Field.preserves_optional fun _ _ before => before
    · intro stored digits result _ _ succeeds
      obtain ⟨validation, readValidation, isResult⟩ := bind_eq_ok_iff.mp succeeds
      cases isResult
      exact Validation.announcement_of_read readValidation
  exact readFields_preserves preserves (fun _ _ => trivial) rfl read

theorem header_of_load {entries : Fields} {header : Header} {digits : Gather}
    (loaded : Step.loadGather entries = .ok (header, digits)) :
    readFields Header.fields [] .blank entries = .ok header := by
  obtain ⟨⟨_, start⟩, read, rest⟩ := bind_eq_ok_iff.mp loaded
  obtain ⟨_, _, isResult⟩ := bind_eq_ok_iff.mp rest
  cases isResult
  exact (Step.readStep_eq_ok read).2

/-- What is kept with a loaded announcement has been stored with it. -/
theorem throughout_iface_of_load (granted : Json.Granted property) {entries : Fields}
    (throughout : (Json.obj entries).Throughout property) {header : Header} {digits : Gather}
    (loaded : Step.loadGather entries = .ok (header, digits)) :
    digits.validation.announcement.header.iface.Throughout property := by
  obtain ⟨⟨_, start⟩, read, rest⟩ := bind_eq_ok_iff.mp loaded
  obtain ⟨_, loadedAnnouncement, isResult⟩ := bind_eq_ok_iff.mp rest
  cases isResult
  unfold loadAnnouncement at loadedAnnouncement
  split at loadedAnnouncement
  · cases loadedAnnouncement
    rw [announcement_of_readFields (Step.readStep_eq_ok read).1]
    exact granted.emptyObject
  · rename_i stored found
    obtain ⟨validation, isValidation, isStored⟩ := Option.bind_eq_some_iff.mp found
    obtain ⟨announcement, loadedStored, isDigits⟩ := bind_eq_ok_iff.mp loadedAnnouncement
    cases isDigits
    have inValidation := throughout.parts validation (Json.mem_parts_of_get? isValidation)
    have inStored := inValidation.parts stored (Json.mem_parts_of_get? isStored)
    exact Announcement.throughout_iface_of_load granted inStored loadedStored

end Gather

/-! ### What is kept with loaded steps -/

namespace Step

theorem throughout_ifaces_normalize (granted : Json.Granted property) {step : Step}
    (throughout : ∀ iface ∈ step.ifaces, iface.Throughout property) :
    ∀ iface ∈ step.normalize.ifaces, iface.Throughout property := by
  induction step using Step.induction with
  | act header action =>
    exact List.forall_mem_singleton.mpr
      (Header.throughout_iface_normalize granted (throughout _ List.mem_cons_self) action.kind)
  | gather header digits prompts ih =>
    simp only [ifaces, List.forall_mem_cons] at throughout
    obtain ⟨own, announcement, inPrompts⟩ := throughout
    simp only [normalize, ifaces, List.forall_mem_cons]
    refine ⟨Header.throughout_iface_normalize granted own .gather,
      Header.throughout_iface_normalize granted announcement .say, ?_⟩
    rw [ifacesAll_eq_flatMap] at inPrompts ⊢
    rw [normalizeAll_eq_map, List.flatMap_map]
    intro iface isIface
    obtain ⟨prompt, isPrompt, inPrompt⟩ := List.mem_flatMap.mp isIface
    refine ih prompt isPrompt (fun iface inPrompt => ?_) iface inPrompt
    exact inPrompts iface (List.mem_flatMap_of_mem isPrompt inPrompt)

/-- A step that is loaded with what it does has the stored header. -/
theorem loadPlain_eq_ok {α : Type} {kind : StepKind} {fields : List (Field α)} {blank : α}
    {action : α → Action} {entries : Fields} {step : Step}
    (loaded : loadPlain kind fields blank action entries = .ok step) :
    ∃ header, readFields Header.fields [] .blank entries = .ok header ∧
      ∃ action, step = .act header action := by
  obtain ⟨⟨header, body⟩, read, isStep⟩ := bind_eq_ok_iff.mp loaded
  cases isStep
  exact ⟨header, (readStep_eq_ok read).2, _, rfl⟩

theorem loadDial_eq_ok {policy : TargetPolicy} {entries : Fields} {step : Step}
    (loaded : loadDial policy entries = .ok step) :
    ∃ header, readFields Header.fields [] .blank entries = .ok header ∧
      ∃ action, step = .act header action := by
  obtain ⟨⟨header, dial⟩, read, rest⟩ := bind_eq_ok_iff.mp loaded
  obtain ⟨targets, _, isStep⟩ := bind_eq_ok_iff.mp rest
  cases isStep
  exact ⟨header, (readStep_eq_ok read).2, _, rfl⟩

theorem loadService_eq_ok {entries : Fields} {step : Step}
    (loaded : loadService entries = .ok step) :
    ∃ header, readFields Header.fields [] .blank entries = .ok header ∧
      ∃ action, step = .act header action := by
  obtain ⟨⟨header, start⟩, read, rest⟩ := bind_eq_ok_iff.mp loaded
  obtain ⟨service, _, isStep⟩ := bind_eq_ok_iff.mp rest
  cases isStep
  exact ⟨header, (readStep_eq_ok read).2, _, rfl⟩

/-- What is kept with a step that does one thing has been stored with it. -/
theorem throughout_ifaces_of_act (granted : Json.Granted property) {entries : Fields}
    (throughout : (Json.obj entries).Throughout property) {step : Step}
    (acts : ∃ header, readFields Header.fields [] .blank entries = .ok header ∧
      ∃ action, step = .act header action) :
    ∀ iface ∈ step.ifaces, iface.Throughout property := by
  obtain ⟨header, read, action, rfl⟩ := acts
  have each := Json.forall_parts_obj.mp throughout.parts
  exact List.forall_mem_singleton.mpr (Header.throughout_iface granted each read)

/-- What is kept with a loaded step has been stored with it, or is an empty object. -/
theorem throughout_ifaces_of_load (granted : Json.Granted property) {vocabulary : Vocabulary}
    {stored : Json} {step : Step} (throughout : stored.Throughout property)
    (loaded : load vocabulary stored = .ok step) :
    ∀ iface ∈ step.ifaces, iface.Throughout property := by
  induction stored using storedInduction generalizing step with
  | each stored ih =>
    obtain ⟨entries, kind, own, rfl, _, loadedOwn, rfl⟩ := exists_own_of_load loaded
    refine throughout_ifaces_normalize granted ?_
    cases kind with
    | gather =>
      obtain ⟨header, digits, prompts, loadedGather, loadedPrompts, rfl⟩ :=
        loadOwn_gather_eq_ok loadedOwn
      have each := Json.forall_parts_obj.mp throughout.parts
      have own := Header.throughout_iface granted each (Gather.header_of_load loadedGather)
      have announcement := Gather.throughout_iface_of_load granted throughout loadedGather
      refine List.forall_mem_cons.mpr ⟨own, List.forall_mem_cons.mpr ⟨announcement, ?_⟩⟩
      rw [ifacesAll_eq_flatMap]
      intro iface isIface
      obtain ⟨prompt, isPrompt, inPrompt⟩ := List.mem_flatMap.mp isIface
      obtain ⟨item, isItem, loadedItem⟩ := exists_of_mapM_eq_ok loadedPrompts prompt isPrompt
      exact ih item isItem (throughout.storedSteps item isItem) loadedItem iface inPrompt
    | dial => exact throughout_ifaces_of_act granted throughout (loadDial_eq_ok loadedOwn)
    | externalService =>
      exact throughout_ifaces_of_act granted throughout (loadService_eq_ok loadedOwn)
    | say | play | redirect | hangUp | reject | pause =>
      rw [loadOwn] at loadedOwn
      exact throughout_ifaces_of_act granted throughout (loadPlain_eq_ok loadedOwn)

theorem throughout_canonical (granted : Json.Granted property) {step : Step}
    (throughout : ∀ iface ∈ step.ifaces, iface.Throughout property) :
    step.canonical.Throughout property :=
  Formatted.throughout granted (formatted_canonical fun iface isIface _ => throughout iface isIface)

/-- **What is granted and holds throughout a stored value holds throughout the canonical form of the
step that is loaded from it.** -/
theorem throughout_canonical_of_load (granted : Json.Granted property) {vocabulary : Vocabulary}
    {stored : Json} {step : Step} (throughout : stored.Throughout property)
    (loaded : load vocabulary stored = .ok step) : step.canonical.Throughout property :=
  throughout_canonical granted (throughout_ifaces_of_load granted throughout loaded)

end Step

end IvrFlow
