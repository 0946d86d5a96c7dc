import IvrFlow.Proofs.Record.Shape
import IvrFlow.Proofs.Step.Loading
import IvrFlow.Proofs.Step.Policies

/-!
Stored dial targets. The word that a stored target has for its type is its tag, too, and says what
may stand in its other entries. A policy keeps all stored targets or just those of known types;
those that are kept are loaded one by one, and the first that cannot be loaded decides the error
(`Step.targets_dispatched`).
-/

namespace IvrFlow

/-! ### Types and tags -/

/-- The tags of targets are the words for their types. -/
@[simp] theorem DialTarget.lookup_tags (word : String) :
    tags.lookup word = DialType.ofWord? word := by
  have comm (tag : String) : (word == tag) = (tag == word) := BEq.comm
  simp only [tags, List.lookup_cons, List.lookup_nil, comm]
  rfl

/-- **A word for a type is a tag of targets of that type, and there are no other tags.** -/
theorem DialTarget.wordValue_tags_eq_ok_iff {word : String} {dialType : DialType} :
    Codec.wordValue tags word = .ok dialType ↔ DialType.ofWord? word = some dialType := by
  rw [Codec.wordValue, lookup_tags]
  cases DialType.ofWord? word with
  | none => simp
  | some found => simp

/-- What may stand in the entries of a target of a type besides its tag. -/
def DialType.layout : DialType → List (String × Shape)
  | .number =>
    [("beforeConnectModule", .textOrNull), ("destination", .text), ("sendDigits", .textOrNull)]
  | .client => [("beforeConnectModule", .textOrNull), ("destination", .text)]
  | .conference =>
    [("beep", .flagOrNull), ("destination", .text), ("endConferenceOnExit", .flagOrNull),
      ("maxParticipants", .counter), ("muted", .flagOrNull), ("nextModule", .textOrNull),
      ("startConferenceOnEnter", .flagOrNull), ("waitMethod", .textOrNull),
      ("waitModule", .textOrNull), ("waitUrl", .textOrNull)]
  | .sipUri => [("destination", .text)]

namespace DialTarget

open IvrFlow.Field (takes_text takes_textOrNull takes_flagOrNull takes_counter)

/-- Entries are read as a target of a type when they are well typed for it. -/
theorem exists_readEntries_iff (entries : Fields) (dialType : DialType) :
    (∃ target, readEntries entries dialType = .ok target) ↔ WellTyped dialType.layout entries := by
  have wrapped {α : Type} (outcome : Except Fault α) (wrap : α → DialTarget) :
      (∃ target, (outcome >>= fun own => .ok (wrap own)) = .ok target) ↔
        ∃ own, outcome = .ok own := by
    cases outcome <;> simp
  cases dialType with
  | number =>
    refine (wrapped _ number).trans (exists_readFields_iff ?_ _ entries)
    exact .cons takes_textOrNull <| .cons takes_text <| .cons takes_textOrNull .nil
  | client =>
    refine (wrapped _ client).trans (exists_readFields_iff ?_ _ entries)
    exact .cons takes_textOrNull <| .cons takes_text .nil
  | conference =>
    refine (wrapped _ conference).trans (exists_readFields_iff ?_ _ entries)
    exact .cons takes_flagOrNull <| .cons takes_text <| .cons takes_flagOrNull <|
      .cons takes_counter <| .cons takes_flagOrNull <| .cons takes_textOrNull <|
      .cons takes_flagOrNull <| .cons takes_textOrNull <| .cons takes_textOrNull <|
      .cons takes_textOrNull .nil
  | sipUri =>
    refine (wrapped _ sipUri).trans (exists_readFields_iff ?_ _ entries)
    exact .cons takes_text .nil

/-- What is read for a type is a target of that type. -/
theorem dialType_of_readEntries {entries : Fields} {dialType : DialType} {target : DialTarget}
    (reads : readEntries entries dialType = .ok target) : target.dialType = dialType := by
  cases dialType with
  | number | client | conference | sipUri =>
    obtain ⟨own, _, isTarget⟩ := bind_eq_ok_iff.mp reads
    cases isTarget
    rfl

/-! ### Stored targets -/

/-- A stored target of a type: an object with the word for the type. -/
structure Tagged (dialType : DialType) (entries : Fields) (stored : Json) : Prop where
  object : stored = .obj entries
  word : entries.lookup "dialType" = some (.str dialType.word)

theorem Tagged.typeWord_eq {dialType : DialType} {entries : Fields} {stored : Json}
    (tagged : Tagged dialType entries stored) : typeWord stored = dialType.word := by
  rw [tagged.object, typeWord, Json.get?, tagged.word]
  rfl

theorem Tagged.known {dialType : DialType} {entries : Fields} {stored : Json}
    (tagged : Tagged dialType entries stored) : ¬ Unknown stored :=
  fun unknown => unknown dialType tagged.typeWord_eq.symm

/-- A stored target is of one type. -/
theorem Tagged.unique {dialType other : DialType} {entries own : Fields} {stored : Json}
    (tagged : Tagged dialType entries stored) (again : Tagged other own stored) :
    dialType = other ∧ entries = own := by
  have sameWord : dialType.word = other.word := tagged.typeWord_eq.symm.trans again.typeWord_eq
  have sameType := DialType.ofWord?_word dialType
  rw [sameWord, DialType.ofWord?_word] at sameType
  exact ⟨(Option.some.inj sameType).symm, Json.obj.inj (tagged.object.symm.trans again.object)⟩

/-- A stored value is of an unknown type, or else it is a stored target of some type. -/
theorem unknown_or_tagged (stored : Json) :
    Unknown stored ∨ ∃ dialType entries, Tagged dialType entries stored := by
  by_cases known : ∃ dialType : DialType, dialType.word = typeWord stored
  · obtain ⟨dialType, named⟩ := known
    cases stored with
    | obj entries =>
      refine Or.inr ⟨dialType, entries, rfl, ?_⟩
      rw [typeWord, Json.get?] at named
      cases found : entries.lookup "dialType" with
      | none =>
        rw [found] at named
        exact absurd named dialType.word_ne_empty
      | some value =>
        rw [found] at named
        cases value with
        | str text => exact congrArg (some ∘ Json.str) named.symm
        | null | bool | num | arr | obj => exact absurd named dialType.word_ne_empty
    | null | bool | num | str | arr => exact absurd named dialType.word_ne_empty
  · exact Or.inl (not_exists.mp known)

instance : DecidablePred Unknown :=
  fun _ => decidable_of_iff _ DialType.ofWord?_eq_none_iff

theorem load?_of_unknown {stored : Json} (unknown : Unknown stored) : load? stored = .ok none := by
  cases stored with
  | obj entries => rw [load?, DialType.ofWord?_eq_none_iff.mpr unknown]
  | null | bool | num | str | arr => rfl

theorem Tagged.load? {dialType : DialType} {entries : Fields} {stored : Json}
    (tagged : Tagged dialType entries stored) :
    load? stored = (StoredPart.target.locate (readEntries entries dialType)).map some := by
  have named := tagged.typeWord_eq
  obtain rfl := tagged.object
  exact load?_of_typeWord named

/-! ### What is kept of them -/

/-- The stored targets that a policy keeps. -/
def kept : TargetPolicy → List Json → List Json
  | .drop, stored => stored.filter fun item => ¬ Unknown item
  | .fail, stored => stored

/-- Loads a stored target that has been kept. -/
def loadKept (step : String) (stored : Json) : Except StepError DialTarget := do
  match ← load? stored with
  | some target => return target
  | none => .error (.unknownDialType step (typeWord stored))

/-- A stored target is read as one of the type that it names. -/
def ReadAs (stored : Json) (target : DialTarget) : Prop :=
  ∃ entries, Tagged target.dialType entries stored ∧
    readEntries entries target.dialType = .ok target

/-- Why a stored value that has been kept cannot be loaded as a target of a step. -/
inductive RefusedFor (step : String) (stored : Json) : StepError → Prop where
  | unknown : Unknown stored → RefusedFor step stored (.unknownDialType step (typeWord stored))
  | malformed {dialType : DialType} {entries : Fields} {fault : Fault} :
      Tagged dialType entries stored → readEntries entries dialType = .error fault →
      RefusedFor step stored (.malformed .target fault)

section Kept

variable {step : String} {stored : Json}

theorem loadKept_of_unknown (unknown : Unknown stored) :
    loadKept step stored = .error (.unknownDialType step (typeWord stored)) := by
  rw [loadKept, load?_of_unknown unknown]
  rfl

theorem Tagged.loadKept {dialType : DialType} {entries : Fields}
    (tagged : Tagged dialType entries stored) :
    loadKept step stored = StoredPart.target.locate (readEntries entries dialType) := by
  rw [DialTarget.loadKept, tagged.load?]
  cases StoredPart.target.locate (readEntries entries dialType) <;> rfl

theorem loadKept_eq_ok_iff {target : DialTarget} :
    loadKept step stored = .ok target ↔ ReadAs stored target := by
  constructor
  · intro loaded
    obtain unknown | ⟨dialType, entries, tagged⟩ := unknown_or_tagged stored
    · rw [loadKept_of_unknown unknown] at loaded
      cases loaded
    · rw [tagged.loadKept, StoredPart.locate_eq_ok_iff] at loaded
      obtain rfl := dialType_of_readEntries loaded
      exact ⟨entries, tagged, loaded⟩
  · rintro ⟨entries, tagged, reads⟩
    rw [tagged.loadKept, reads]
    rfl

theorem loadKept_eq_error_iff {error : StepError} :
    loadKept step stored = .error error ↔ RefusedFor step stored error := by
  constructor
  · intro fails
    obtain unknown | ⟨dialType, entries, tagged⟩ := unknown_or_tagged stored
    · rw [loadKept_of_unknown unknown] at fails
      cases fails
      exact .unknown unknown
    · rw [tagged.loadKept] at fails
      cases reads : readEntries entries dialType with
      | ok target =>
        rw [reads] at fails
        cases fails
      | error fault =>
        rw [reads] at fails
        cases fails
        exact .malformed tagged reads
  · rintro (unknown | ⟨tagged, reads⟩)
    · exact loadKept_of_unknown unknown
    · rw [tagged.loadKept, reads]
      rfl

/-- A stored value is loaded when it names a type and is well typed for it. -/
theorem exists_readAs_iff :
    (∃ target, ReadAs stored target) ↔
      ∃ dialType entries, Tagged dialType entries stored ∧ WellTyped dialType.layout entries := by
  constructor
  · rintro ⟨target, entries, tagged, reads⟩
    exact ⟨_, entries, tagged, (exists_readEntries_iff entries _).mp ⟨target, reads⟩⟩
  · rintro ⟨dialType, entries, tagged, typed⟩
    obtain ⟨target, reads⟩ := (exists_readEntries_iff entries dialType).mpr typed
    obtain rfl := dialType_of_readEntries reads
    exact ⟨target, entries, tagged, reads⟩

end Kept

/-- Where unknown types are dropped, only the targets of known types have to be well typed. -/
theorem forall_kept_drop_iff {stored : List Json} :
    (∀ item ∈ kept .drop stored, ∃ dialType own, Tagged dialType own item ∧
        WellTyped dialType.layout own) ↔
      ∀ item ∈ stored, ∀ dialType own, Tagged dialType own item →
        WellTyped dialType.layout own := by
  rw [kept]
  constructor
  · intro typed item isStored dialType own tagged
    obtain ⟨_, _, again, isTyped⟩ :=
      typed item (List.mem_filter.mpr ⟨isStored, by simpa using tagged.known⟩)
    obtain ⟨rfl, rfl⟩ := tagged.unique again
    exact isTyped
  · intro typed item isKept
    obtain ⟨isStored, known⟩ := List.mem_filter.mp isKept
    obtain unknown | ⟨dialType, own, tagged⟩ := unknown_or_tagged item
    · exact absurd unknown (by simpa using known)
    · exact ⟨dialType, own, tagged, typed item isStored dialType own tagged⟩

/-- **The stored targets that are kept are loaded one by one.** -/
theorem loadAll_eq_mapM (policy : TargetPolicy) (step : String) (stored : List Json) :
    loadAll policy step stored = (kept policy stored).mapM (loadKept step) := by
  induction stored with
  | nil => cases policy <;> rfl
  | cons first rest ih =>
    obtain unknown | ⟨dialType, entries, tagged⟩ := unknown_or_tagged first
    · cases policy with
      | drop =>
        rw [loadAll, load?_of_unknown unknown, kept,
          List.filter_cons_of_neg (by simpa using unknown)]
        exact ih
      | fail =>
        rw [loadAll, load?_of_unknown unknown, kept, List.mapM_cons, loadKept_of_unknown unknown]
        rfl
    · have keeps : kept policy (first :: rest) = first :: kept policy rest := by
        cases policy with
        | drop => rw [kept, List.filter_cons_of_pos (by simpa using tagged.known), kept]
        | fail => rfl
      rw [keeps, List.mapM_cons, tagged.loadKept, ← ih, loadAll.eq_def]
      dsimp only
      rw [tagged.load?]
      cases StoredPart.target.locate (readEntries entries dialType) <;> rfl

end DialTarget

/-! ### Dial steps -/

namespace Step

open DialTarget

/-- How a dial step is loaded whose own fields are read. Its targets are just those that the policy
keeps, each read as the type that it names. Where unknown types are dropped, the stored targets of
known types have to be well typed; where they fail, all have to be of known types as well. The first
one that is kept and cannot be loaded decides the error. -/
structure Dispatched (vocabulary : Vocabulary) (entries : Fields) (header : Header) (dial : Dial) :
    Prop where
  loaded : ∀ step, load vocabulary (.obj entries) = .ok step ↔ ∃ targets,
    List.Forall₂ ReadAs (kept vocabulary.policy (Dial.storedTargets entries)) targets ∧
      step = .act (header.normalize .dial) (.dial { dial with targets := targets })
  dropping : vocabulary.policy = .drop → ((∃ step, load vocabulary (.obj entries) = .ok step) ↔
    ∀ item ∈ Dial.storedTargets entries, ∀ dialType own, Tagged dialType own item →
      WellTyped dialType.layout own)
  failing : vocabulary.policy = .fail → ((∃ step, load vocabulary (.obj entries) = .ok step) ↔
    ∀ item ∈ Dial.storedTargets entries, ∃ dialType own, Tagged dialType own item ∧
      WellTyped dialType.layout own)
  failed : ∀ error, load vocabulary (.obj entries) = .error error ↔ ∃ before item after,
    kept vocabulary.policy (Dial.storedTargets entries) = before ++ item :: after ∧
      (∀ other ∈ before, ∃ target, ReadAs other target) ∧ RefusedFor header.name item error

section Loading

variable {vocabulary : Vocabulary} {entries : Fields} {header : Header} {dial : Dial}

theorem load_dial_eq (isDial : vocabulary.storedKind (.obj entries) = .ok .dial)
    (read : readStep .dial Dial.fields .new entries = .ok (header, dial)) :
    load vocabulary (.obj entries) =
      (kept vocabulary.policy (Dial.storedTargets entries)).mapM (loadKept header.name) >>=
        fun targets =>
          .ok (.act (header.normalize .dial) (.dial { dial with targets := targets })) := by
  rw [load_obj isDial, loadOwn, loadDial, read, ← DialTarget.loadAll_eq_mapM]
  show ((DialTarget.loadAll vocabulary.policy header.name (Dial.storedTargets entries) >>=
    fun targets => .ok (act header (.dial { dial with targets := targets }))) >>=
      fun step => .ok step.normalize) = _
  rw [bind_assoc]
  rfl

theorem load_dial_eq_ok_iff (isDial : vocabulary.storedKind (.obj entries) = .ok .dial)
    (read : readStep .dial Dial.fields .new entries = .ok (header, dial)) (step : Step) :
    load vocabulary (.obj entries) = .ok step ↔ ∃ targets,
      List.Forall₂ ReadAs (kept vocabulary.policy (Dial.storedTargets entries)) targets ∧
        step = .act (header.normalize .dial) (.dial { dial with targets := targets }) := by
  rw [load_dial_eq isDial read, bind_eq_ok_iff]
  simp only [mapM_eq_ok_iff, loadKept_eq_ok_iff, Except.ok.injEq, @eq_comm _ step]

/-- A dial step is loaded when the targets that are kept are all well typed. -/
theorem exists_load_dial_iff (isDial : vocabulary.storedKind (.obj entries) = .ok .dial)
    (read : readStep .dial Dial.fields .new entries = .ok (header, dial)) :
    (∃ step, load vocabulary (.obj entries) = .ok step) ↔
      ∀ item ∈ kept vocabulary.policy (Dial.storedTargets entries), ∃ dialType own,
        Tagged dialType own item ∧ WellTyped dialType.layout own := by
  simp only [load_dial_eq_ok_iff isDial read, ← exists_readAs_iff, ← exists_forall₂_iff]
  constructor
  · rintro ⟨_, targets, each, _⟩
    exact ⟨targets, each⟩
  · rintro ⟨targets, each⟩
    exact ⟨_, targets, each, rfl⟩

/-- **Dial targets are dispatched completely and in order**, each by the type that it names. The tag
of a known type is never refused, and targets are loaded back from their canonical form. -/
theorem targets_dispatched (isDial : vocabulary.storedKind (.obj entries) = .ok .dial)
    (read : readStep .dial Dial.fields .new entries = .ok (header, dial)) :
    Dispatched vocabulary entries header dial ∧
      (∀ word dialType, DialType.ofWord? word = some dialType ↔
        Codec.wordValue tags word = .ok dialType) ∧
      ∀ header (held : Dial), (Step.act header (.dial held)).canonical.get? "targets" =
          some (.arr (held.targets.map toJson)) ∧
        ∀ target ∈ held.targets, load? target.toJson = .ok (some target) := by
  refine ⟨⟨load_dial_eq_ok_iff isDial read, fun drops => ?_, fun fails => ?_, fun error => ?_⟩,
    fun _ _ => wordValue_tags_eq_ok_iff.symm,
    fun header held => ⟨?_, fun target _ => load?_toJson target⟩⟩
  · rw [exists_load_dial_iff isDial read, drops, forall_kept_drop_iff]
  · rw [exists_load_dial_iff isDial read, fails, kept]
  · rw [load_dial_eq isDial read, bind_eq_error_iff, mapM_eq_error_iff]
    simp only [FirstFails, loadKept_eq_ok_iff, loadKept_eq_error_iff, reduceCtorEq, and_false,
      exists_false, or_false]
  · simp [Action.normalize, Action.prune, Action.entries]

end Loading

/-- Entries of a dial step with a client, a fax and a room for few. -/
def mixedDial : Fields :=
  [("kind", .str "dial"), ("name", .str "ring"), ("targets", .arr [
    .obj [("destination", .str "ann"), ("dialType", .str "client")],
    .obj [("dialType", .str "fax")],
    .obj [("destination", .str "team"), ("dialType", .str "conference"),
      ("maxParticipants", .str " 3 ")]])]

/-- Without the fax, the client and the room are loaded; with it, the step is refused. -/
theorem targets_dispatched_mixed :
    load (Vocabulary.standard.withPolicy .drop) (.obj mixedDial) =
        .ok (.act (.new .dial "ring") (.dial { Dial.new with targets :=
          [.client ⟨"ann", none⟩,
            .conference { ConferenceTarget.blank with
              destination := "team", maxParticipants := some 3 }] })) ∧
      load (Vocabulary.standard.withPolicy .fail) (.obj mixedDial) =
        .error (.unknownDialType "ring" "fax") := by
  have read : readStep .dial Dial.fields .new mixedDial =
      .ok ({ Header.blank with name := "ring" }, .new) := rfl
  have isDial (policy : TargetPolicy) :
      (Vocabulary.standard.withPolicy policy).storedKind (.obj mixedDial) = .ok .dial := by
    cases policy <;> rfl
  have dropping := (targets_dispatched (isDial .drop) read).1
  have failing := (targets_dispatched (isDial .fail) read).1
  have client : ReadAs (.obj [("destination", .str "ann"), ("dialType", .str "client")])
      (.client ⟨"ann", none⟩) := ⟨_, ⟨rfl, rfl⟩, rfl⟩
  refine ⟨(dropping.loaded _).mpr ⟨_, ?_, rfl⟩, (failing.failed _).mpr ?_⟩
  · exact .cons client <| .cons ⟨_, ⟨rfl, rfl⟩, rfl⟩ .nil
  · refine ⟨[_], _, _, rfl, List.forall_mem_singleton.mpr ⟨_, client⟩, ?_⟩
    exact .unknown fun dialType => by cases dialType <;> decide

end Step

end IvrFlow
