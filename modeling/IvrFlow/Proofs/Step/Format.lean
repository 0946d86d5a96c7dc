import IvrFlow.Proofs.Step.Reading

/-!
The format of stored steps. A value is `Formatted` when the entries of each of its objects stand in
the order of their keys, none of them is of an older form, and nothing in it is null. What the
editor keeps with a step is not bound by this: it is only asked to be what the steps hold
(`formatted_canonical`).
-/

namespace IvrFlow

/-! ### Older forms -/

/-- The keys of older stored forms. They are read, each as another key. -/
def olderKeys : List String :=
  ["dialNouns", "collectdigits", "urlParams", "destVariable", "accessOperations"]

/-- The words of older stored forms, each with the key that it stands under. They are read, each as
another word. -/
def olderWords : List (String × String) :=
  [("gatherType", "collectdigits"), ("scope", "application"), ("kind", "object"),
    ("kind", "array"), ("kind", "terminal")]

/-- An entry of an older form: it has an older key, or an older word under its key. -/
def Older (entry : String × Json) : Prop :=
  entry.1 ∈ olderKeys ∨ ∃ word, (entry.1, word) ∈ olderWords ∧ entry.2 = .str word

/-- A key of no older form, under which no word has an older form either. -/
def Plain (key : String) : Prop := key ∉ olderKeys ++ olderWords.map Prod.fst

instance (key : String) : Decidable (Plain key) := inferInstanceAs (Decidable (_ ∉ _))

theorem Plain.not_older {key : String} (plain : Plain key) (value : Json) :
    ¬ Older (key, value) := by
  rintro (isKey | ⟨word, isWord, _⟩)
  · exact plain (List.mem_append_left _ isKey)
  · exact plain (List.mem_append_right _ (List.mem_map_of_mem (f := Prod.fst) isWord))

theorem not_older_of_word {key word : String} (newer : key ∉ olderKeys)
    (newerWord : (key, word) ∉ olderWords) : ¬ Older (key, .str word) := by
  rintro (isKey | ⟨other, isWord, same⟩)
  · exact newer isKey
  · cases same
    exact newerWord isWord

/-! ### The format -/

/-- A value in the format of stored steps. Under `iface` anything may stand that is `free`. -/
inductive Formatted (free : Json → Prop) : Json → Prop where
  | text (value : String) : Formatted free (.str value)
  | flag (value : Bool) : Formatted free (.bool value)
  | natural (value : UInt64) : Formatted free (.num (.natural value))
  | array {items : List Json} : (∀ item ∈ items, Formatted free item) → Formatted free (.arr items)
  | object {entries : Fields} : entries.Sorted → (∀ entry ∈ entries, ¬ Older entry) →
      (∀ entry ∈ entries, ¬ (entry.1 = "iface" ∧ free entry.2) → Formatted free entry.2) →
      Formatted free (.obj entries)

theorem Formatted.array_map {α : Type} {free : Json → Prop} {write : α → Json} {values : List α}
    (formatted : ∀ value ∈ values, Formatted free (write value)) :
    Formatted free (.arr (values.map write)) := by
  refine .array fun stored member => ?_
  obtain ⟨value, isValue, rfl⟩ := List.mem_map.mp member
  exact formatted value isValue

/-- Entries that make a formatted object. -/
structure FormattedEntries (free : Json → Prop) (entries : Fields) : Prop where
  sorted : entries.Sorted
  newer : ∀ entry ∈ entries, ¬ Older entry
  formatted : ∀ entry ∈ entries, ¬ (entry.1 = "iface" ∧ free entry.2) → Formatted free entry.2

variable {free : Json → Prop}

theorem FormattedEntries.object {entries : Fields} (formatted : FormattedEntries free entries) :
    Formatted free (.obj entries) :=
  .object formatted.sorted formatted.newer formatted.formatted

theorem formattedEntries_nil : FormattedEntries free [] :=
  ⟨List.Pairwise.nil, by simp, by simp⟩

theorem FormattedEntries.insert_of_not {entries : Fields}
    (formatted : FormattedEntries free entries) {key : String} {value : Json}
    (newer : ¬ Older (key, value))
    (own : ¬ (key = "iface" ∧ free value) → Formatted free value) :
    FormattedEntries free (entries.insert key value) where
  sorted := Fields.sorted_insert formatted.sorted key value
  newer entry member := by
    rcases Fields.mem_insert member with rfl | before
    · exact newer
    · exact formatted.newer entry before
  formatted entry member := by
    rcases Fields.mem_insert member with rfl | before
    · exact own
    · exact formatted.formatted entry before

theorem FormattedEntries.insert {entries : Fields} (formatted : FormattedEntries free entries)
    {key : String} {value : Json} (plain : Plain key) (own : Formatted free value) :
    FormattedEntries free (entries.insert key value) :=
  formatted.insert_of_not (plain.not_older value) fun _ => own

/-! ### Codecs and fields -/

/-- Whatever a codec writes is formatted. -/
def Codec.Formats {α : Type} (free : Json → Prop) (codec : Codec α) : Prop :=
  ∀ value, Formatted free (codec.write value)

/-- What a field writes of a record is formatted. -/
def Field.Formats {α : Type} (free : Json → Prop) (record : α) (field : Field α) : Prop :=
  ∀ stored, field.write record = some stored → Formatted free stored

/-- Whatever a field writes makes an entry of no older form. -/
def Field.Newer {α : Type} (field : Field α) : Prop :=
  ∀ record stored, field.write record = some stored → ¬ Older (field.name, stored)

section Writing

variable {α β : Type}

theorem Codec.formats_text : Codec.text.Formats free := .text

theorem Codec.formats_flag : Codec.flag.Formats free := .flag

theorem Codec.formats_word (words : List (String × α)) (spell : α → String) :
    (word words spell).Formats free := fun value => .text (spell value)

theorem Codec.formats_list {item : Codec α} (formats : item.Formats free) :
    (list item).Formats free := by
  intro values
  exact .array_map fun value _ => formats value

variable {name : String} {aliases : List String} {codec : Codec β} {record : α}

theorem Field.formats_of {get : α → β} {set : α → β → α} (formats : codec.Formats free) :
    (Field.of name aliases codec get set).Formats free record := by
  intro stored written
  cases written
  exact formats (get record)

theorem Field.formats_optional {read : Json → Except Fault (Option β)} {write : β → Json}
    {get : α → Option β} {set : α → Option β → α}
    (formats : ∀ value, Formatted free (write value)) :
    (Field.optional name aliases read write get set).Formats free record := by
  intro stored written
  obtain ⟨value, _, rfl⟩ := Option.map_eq_some_iff.mp written
  exact formats value

theorem Field.formats_orNull {get : α → Option β} {set : α → Option β → α}
    (formats : codec.Formats free) :
    (Field.orNull name aliases codec get set).Formats free record :=
  formats_optional formats

theorem Field.formats_counter {get : α → Option UInt32} {set : α → Option UInt32 → α} :
    (Field.counter name get set).Formats free record :=
  formats_optional fun value => .natural value.toUInt64

theorem Field.newer_of_plain {field : Field α} (plain : Plain field.name) : field.Newer :=
  fun _ stored _ => plain.not_older stored

/-- A field of words, none of which is an older one. -/
theorem Field.newer_of_word {words : List (String × β)} {spell : β → String} {get : α → β}
    {set : α → β → α} (newer : name ∉ olderKeys)
    (newerWords : ∀ value, (name, spell value) ∉ olderWords) :
    (Field.of name aliases (.word words spell) get set).Newer := by
  intro record stored written
  cases written
  exact not_older_of_word newer (newerWords _)

theorem formattedEntries_writeFields {fields : List (Field α)} (inOrder : InOrder fields)
    (newer : ∀ field ∈ fields, field.Newer)
    (formats : ∀ field ∈ fields, field.Formats free record) :
    FormattedEntries free (writeFields fields record) where
  sorted := sorted_writeFields inOrder
  newer entry member := by
    obtain ⟨field, isField, named, written⟩ := mem_writeFields member
    have notOlder := newer field isField record entry.2 written
    rwa [← named] at notOlder
  formatted entry member _ := by
    obtain ⟨field, isField, _, written⟩ := mem_writeFields member
    exact formats field isField entry.2 written

/-- What is written by fields whose keys are all plain. -/
theorem formattedEntries_of_plain {fields : List (Field α)} (inOrder : InOrder fields)
    (plain : ∀ field ∈ fields, Plain field.name)
    (formats : ∀ field ∈ fields, field.Formats free record) :
    FormattedEntries free (writeFields fields record) :=
  formattedEntries_writeFields inOrder
    (fun field isField => Field.newer_of_plain (plain field isField)) formats

end Writing

/-! ### Headers -/

namespace Header

/-- The entries of a normal header and of a kind, among own entries. -/
theorem formattedEntries_entries {own : Fields} (formatted : FormattedEntries free own)
    (kind : StepKind) {header : Header} (held : header.iface.isObject = true → free header.iface) :
    FormattedEntries free ((header.normalize kind).entries kind own) := by
  have iface : ¬ ("iface" = "iface" ∧ free (header.normalize kind).iface) →
      Formatted free (header.normalize kind).iface := by
    intro notFree
    simp only [true_and] at notFree
    simp only [normalize] at notFree ⊢
    split
    · rename_i isObject
      rw [if_pos isObject] at notFree
      exact absurd (held isObject) notFree
    · exact formattedEntries_nil.object
  have word : ("kind", kind.word) ∉ olderWords := by cases kind <;> decide
  exact ((((formatted.insert_of_not (Plain.not_older (by decide) _) iface).insert (by decide)
    (.text _)).insert (by decide) (.text _)).insert (by decide) (.text _)).insert_of_not
    (not_older_of_word (by decide) word) fun _ => .text _

end Header

/-! ### Actions -/

theorem Say.formattedEntries (say : Say) : FormattedEntries free (writeFields fields say) := by
  refine formattedEntries_of_plain (by decide) (by decide) ?_
  simp only [fields, List.forall_mem_cons]
  exact ⟨Field.formats_orNull Codec.formats_text, Field.formats_counter,
    Field.formats_of Codec.formats_text, Field.formats_orNull Codec.formats_text,
    List.forall_mem_nil _⟩

theorem LocalAudio.formats_codec : form.codec.Formats free := fun _ => by
  refine (formattedEntries_of_plain (by decide) (by decide) ?_).object
  exact List.forall_mem_singleton.mpr (Field.formats_of Codec.formats_text)

theorem RemoteAudio.formats_codec : form.codec.Formats free := fun _ => by
  refine (formattedEntries_of_plain (by decide) (by decide) ?_).object
  exact List.forall_mem_singleton.mpr (Field.formats_of Codec.formats_text)

theorem Play.formattedEntries (play : Play) : FormattedEntries free (writeFields fields play) := by
  refine formattedEntries_of_plain (by decide) (by decide) ?_
  simp only [fields, List.forall_mem_cons]
  exact ⟨Field.formats_orNull LocalAudio.formats_codec, Field.formats_counter,
    Field.formats_of (Codec.formats_word _ _), Field.formats_orNull RemoteAudio.formats_codec,
    List.forall_mem_nil _⟩

theorem Redirect.formattedEntries (redirect : Redirect) :
    FormattedEntries free (writeFields fields redirect) := by
  refine formattedEntries_of_plain (by decide) (by decide) ?_
  simp only [fields, List.forall_mem_cons]
  exact ⟨Field.formats_orNull Codec.formats_text, Field.formats_orNull Codec.formats_text,
    List.forall_mem_nil _⟩

theorem Reject.formattedEntries (reject : Reject) :
    FormattedEntries free (writeFields fields reject) :=
  formattedEntries_of_plain (by decide) (by decide)
    (List.forall_mem_singleton.mpr (Field.formats_orNull Codec.formats_text))

theorem Pause.formattedEntries (pause : Pause) : FormattedEntries free (writeFields fields pause) :=
  formattedEntries_of_plain (by decide) (by decide)
    (List.forall_mem_singleton.mpr Field.formats_counter)

/-! ### Dialling -/

namespace DialTarget

theorem formattedEntries (target : DialTarget) : FormattedEntries free target.entries := by
  cases target with
  | number target =>
    refine formattedEntries_of_plain (by decide) (by decide) ?_
    simp only [NumberTarget.fields, List.forall_mem_cons]
    exact ⟨Field.formats_orNull Codec.formats_text, Field.formats_of Codec.formats_text,
      Field.formats_orNull Codec.formats_text, List.forall_mem_nil _⟩
  | client target =>
    refine formattedEntries_of_plain (by decide) (by decide) ?_
    simp only [ClientTarget.fields, List.forall_mem_cons]
    exact ⟨Field.formats_orNull Codec.formats_text, Field.formats_of Codec.formats_text,
      List.forall_mem_nil _⟩
  | conference target =>
    refine formattedEntries_of_plain (by decide) (by decide) ?_
    simp only [ConferenceTarget.fields, List.forall_mem_cons]
    exact ⟨Field.formats_orNull Codec.formats_flag, Field.formats_of Codec.formats_text,
      Field.formats_orNull Codec.formats_flag, Field.formats_counter,
      Field.formats_orNull Codec.formats_flag, Field.formats_orNull Codec.formats_text,
      Field.formats_orNull Codec.formats_flag, Field.formats_orNull Codec.formats_text,
      Field.formats_orNull Codec.formats_text, Field.formats_orNull Codec.formats_text,
      List.forall_mem_nil _⟩
  | sipUri target =>
    exact formattedEntries_of_plain (by decide) (by decide)
      (List.forall_mem_singleton.mpr (Field.formats_of Codec.formats_text))

theorem formatted_toJson (target : DialTarget) : Formatted free target.toJson :=
  (target.formattedEntries.insert (by decide) (.text _)).object

end DialTarget

theorem Dial.formattedEntries (dial : Dial) : FormattedEntries free dial.entries := by
  have own : FormattedEntries free (writeFields fields dial) := by
    refine formattedEntries_of_plain (by decide) (by decide) ?_
    simp only [fields, List.forall_mem_cons]
    exact ⟨Field.formats_orNull Codec.formats_text, Field.formats_orNull Codec.formats_text,
      Field.formats_orNull Codec.formats_text, Field.formats_orNull Codec.formats_text,
      Field.formats_orNull Codec.formats_flag, Field.formats_counter, Field.formats_counter,
      List.forall_mem_nil _⟩
  exact own.insert (by decide) (.array_map fun target _ => target.formatted_toJson)

/-! ### External services -/

/-- A hop is stored under the newer word for its kind. -/
theorem Hop.formats_codec : form.codec.Formats free := fun hop => by
  refine (formattedEntries_writeFields (by decide) ?_ ?_).object
  · simp only [form, List.forall_mem_cons]
    exact ⟨Field.newer_of_word (by decide) fun kind => by cases kind <;> decide,
      Field.newer_of_plain (by decide), Field.newer_of_plain (by decide), List.forall_mem_nil _⟩
  · simp only [form, List.forall_mem_cons]
    exact ⟨Field.formats_of (Codec.formats_word _ _), Field.formats_counter,
      Field.formats_orNull Codec.formats_text, List.forall_mem_nil _⟩

theorem Path.formatted_toJson (path : Path) : Formatted free path.toJson :=
  (formattedEntries_of_plain (by decide) (by decide) (List.forall_mem_singleton.mpr
    (Field.formats_of (Codec.formats_list Hop.formats_codec)))).object

/-- A variable is stored under the newer word for its scope. -/
theorem Assignment.formatted_toJson (assignment : Assignment) :
    Formatted free assignment.toJson := by
  have own : FormattedEntries free (writeFields form.fields assignment) := by
    refine formattedEntries_writeFields (by decide) ?_ ?_
    · simp only [form, List.forall_mem_cons]
      exact ⟨Field.newer_of_plain (by decide),
        Field.newer_of_word (by decide) fun scope => by cases scope <;> decide,
        List.forall_mem_nil _⟩
    · simp only [form, List.forall_mem_cons]
      exact ⟨Field.formats_of Codec.formats_text, Field.formats_of (Codec.formats_word _ _),
        List.forall_mem_nil _⟩
  exact (own.insert (by decide) assignment.path.formatted_toJson).object

theorem UrlParameter.formats_codec : form.codec.Formats free := fun parameter => by
  refine (formattedEntries_of_plain (by decide) (by decide) ?_).object
  simp only [form, List.forall_mem_cons]
  exact ⟨Field.formats_of Codec.formats_text, Field.formats_of Codec.formats_text,
    List.forall_mem_nil _⟩

theorem Service.formattedEntries (service : Service) : FormattedEntries free service.entries := by
  have own : FormattedEntries free (writeFields fields service) := by
    refine formattedEntries_of_plain (by decide) (by decide) ?_
    simp only [fields, List.forall_mem_cons]
    exact ⟨Field.formats_of Codec.formats_flag, Field.formats_of Codec.formats_text,
      Field.formats_of (Codec.formats_word _ _), Field.formats_of Codec.formats_text,
      Field.formats_of (Codec.formats_list UrlParameter.formats_codec), List.forall_mem_nil _⟩
  exact (own.insert (by decide) (.array_map fun assignment _ => assignment.formatted_toJson)).insert
    (by decide) service.nextPath.formatted_toJson

/-! ### Gathering -/

theorem MenuMapping.formats_codec : form.codec.Formats free := fun mapping => by
  refine (formattedEntries_of_plain (by decide) (by decide) ?_).object
  simp only [form, List.forall_mem_cons]
  exact ⟨Field.formats_of fun digits => .text digits, Field.formats_of Codec.formats_text,
    List.forall_mem_nil _⟩

theorem Menu.formats_codec : form.codec.Formats free := fun _ => by
  refine (formattedEntries_of_plain (by decide) (by decide) ?_).object
  exact List.forall_mem_singleton.mpr
    (Field.formats_of (Codec.formats_list MenuMapping.formats_codec))

/-- A variable is stored under the newer word for its scope. -/
theorem CollectDigits.formats_codec : form.codec.Formats free := fun collectDigits => by
  refine (formattedEntries_writeFields (by decide) ?_ ?_).object
  · simp only [form, List.forall_mem_cons]
    exact ⟨Field.newer_of_plain (by decide), Field.newer_of_plain (by decide),
      Field.newer_of_word (by decide) fun scope => by cases scope <;> decide, List.forall_mem_nil _⟩
  · simp only [form, List.forall_mem_cons]
    exact ⟨Field.formats_of Codec.formats_text, Field.formats_of Codec.formats_text,
      Field.formats_of (Codec.formats_word _ _), List.forall_mem_nil _⟩

theorem PatternView.formats_codec : form.codec.Formats free := fun view => by
  refine (formattedEntries_of_plain (by decide) (by decide) ?_).object
  simp only [form, List.forall_mem_cons]
  exact ⟨Field.formats_of Codec.formats_text, Field.formats_of (Codec.formats_word _ _),
    List.forall_mem_nil _⟩

theorem Announcement.formatted_canonical {announcement : Announcement}
    (held : announcement.header.iface.isObject = true → free announcement.header.iface) :
    Formatted free announcement.canonical :=
  (Header.formattedEntries_entries announcement.say.normalize.formattedEntries .say held).object

/-- Normalizing does not show in the canonical form. -/
@[simp] theorem Announcement.canonical_normalize (announcement : Announcement) :
    announcement.normalize.canonical = announcement.canonical := by
  rw [canonical, canonical, normalize_normalize]

theorem Validation.formatted_write {validation : Validation}
    (announcement : Formatted free validation.announcement.canonical) :
    Formatted free (codec.write validation) := by
  have own : FormattedEntries free (writeFields form.fields validation) := by
    refine formattedEntries_of_plain (by decide) (by decide) ?_
    simp only [form, List.forall_mem_cons]
    exact ⟨Field.formats_optional PatternView.formats_codec,
      Field.formats_of fun pattern => .text pattern, List.forall_mem_nil _⟩
  exact (own.insert (by decide) announcement).object

/-- What digits are taken for is stored under its newer word. -/
theorem Gather.formattedEntries {gather : Gather} {prompts : List Json}
    (announcement : Formatted free gather.validation.announcement.canonical)
    (formatted : ∀ prompt ∈ prompts, Formatted free prompt) :
    FormattedEntries free (gather.entries prompts) := by
  have own : FormattedEntries free (writeFields fields gather) := by
    refine formattedEntries_writeFields (by decide) ?_ ?_
    · simp only [fields, List.forall_mem_cons]
      exact ⟨Field.newer_of_plain (by decide), Field.newer_of_plain (by decide),
        Field.newer_of_plain (by decide),
        Field.newer_of_word (by decide) fun gatherType => by cases gatherType <;> decide,
        Field.newer_of_plain (by decide), Field.newer_of_plain (by decide),
        Field.newer_of_plain (by decide), Field.newer_of_plain (by decide),
        Field.newer_of_plain (by decide), List.forall_mem_nil _⟩
    · simp only [fields, List.forall_mem_cons]
      exact ⟨Field.formats_orNull Codec.formats_text,
        Field.formats_orNull CollectDigits.formats_codec,
        Field.formats_orNull Codec.formats_text, Field.formats_of (Codec.formats_word _ _),
        Field.formats_orNull Menu.formats_codec, Field.formats_of Codec.formats_text,
        Field.formats_counter, Field.formats_counter, fun stored written => by
          cases written
          exact Validation.formatted_write announcement,
        List.forall_mem_nil _⟩
  exact own.insert (by decide) (.array formatted)

@[simp] theorem Gather.validation_prune (gather : Gather) :
    gather.prune.validation = gather.validation := by
  unfold prune
  split
  · rfl
  · rfl

theorem Action.formattedEntries (action : Action) : FormattedEntries free action.entries := by
  cases action with
  | say body => exact body.formattedEntries
  | play body => exact body.formattedEntries
  | dial body => exact body.formattedEntries
  | redirect body => exact body.formattedEntries
  | hangUp => exact formattedEntries_nil
  | reject body => exact body.formattedEntries
  | pause body => exact body.formattedEntries
  | externalService body => exact body.formattedEntries

/-! ### Whole steps -/

namespace Step

mutual

/-- What the editor keeps with a step, with its announcement and with its prompts at every depth. -/
def ifaces : Step → List Json
  | .act header _ => [header.iface]
  | .gather header digits prompts =>
    header.iface :: digits.validation.announcement.header.iface :: ifacesAll prompts

/-- What the editor keeps with steps. -/
def ifacesAll : List Step → List Json
  | [] => []
  | step :: rest => ifaces step ++ ifacesAll rest

end

@[simp] theorem ifacesAll_eq_flatMap : ∀ steps : List Step, ifacesAll steps = steps.flatMap ifaces
  | [] => rfl
  | step :: rest => by rw [ifacesAll, ifacesAll_eq_flatMap rest, List.flatMap_cons]

/-- **A canonical form is formatted at every depth**, up to the objects that the editor keeps. -/
theorem formatted_canonical {step : Step}
    (held : ∀ iface ∈ step.ifaces, iface.isObject = true → free iface) :
    Formatted free step.canonical := by
  induction step using Step.induction with
  | act header action =>
    exact (Header.formattedEntries_entries action.normalize.prune.formattedEntries action.kind
      (held header.iface List.mem_cons_self)).object
  | gather header digits prompts ih =>
    have announcement : Formatted free
        digits.normalize.prune.validation.announcement.canonical := by
      rw [Gather.validation_prune, Gather.normalize, Validation.normalize,
        Announcement.canonical_normalize]
      exact Announcement.formatted_canonical
        (held _ (List.mem_cons_of_mem _ List.mem_cons_self))
    have formatted : ∀ prompt ∈ canonicalAll prompts, Formatted free prompt := by
      intro stored member
      rw [canonicalAll_eq_map] at member
      obtain ⟨prompt, isPrompt, rfl⟩ := List.mem_map.mp member
      refine ih prompt isPrompt fun iface isIface => held iface ?_
      refine List.mem_cons_of_mem _ (List.mem_cons_of_mem _ ?_)
      rw [ifacesAll_eq_flatMap]
      exact List.mem_flatMap_of_mem isPrompt isIface
    exact (Header.formattedEntries_entries (Gather.formattedEntries announcement formatted) .gather
      (held header.iface List.mem_cons_self)).object

end Step

end IvrFlow
