import IvrFlow.Proofs.Json.Entries
import IvrFlow.Proofs.Outcomes
import IvrFlow.Record.Basic

/-!
Reading back what has been written. A codec is lossless when it reads every value back from its
stored form. Fields are read one by one, so what reading a record gives follows from what each of its
fields does to the record read so far: `rereadAll`. Entries under keys that no field has never
matter.
-/

namespace IvrFlow

/-! ### Codecs -/

namespace Codec

variable {α : Type}

/-- Every value is read back from its stored form. -/
def Lossless (codec : Codec α) : Prop := ∀ value, codec.read (codec.write value) = .ok value

/-- No value is stored as null. -/
def NeverNull (codec : Codec α) : Prop := ∀ value, codec.write value ≠ .null

@[simp] theorem lossless_text : text.Lossless := fun _ => rfl

@[simp] theorem lossless_flag : flag.Lossless := fun _ => rfl

@[simp] theorem lossless_natural : natural.Lossless := fun _ => rfl

@[simp] theorem lossless_any : any.Lossless := fun _ => rfl

@[simp] theorem lossless_textOrNumber : textOrNumber.Lossless := fun _ => rfl

@[simp] theorem neverNull_text : text.NeverNull := fun _ => Json.noConfusion

@[simp] theorem neverNull_flag : flag.NeverNull := fun _ => Json.noConfusion

@[simp] theorem neverNull_list (item : Codec α) : (list item).NeverNull := fun _ => Json.noConfusion

theorem lossless_word {words : List (String × α)} {spell : α → String}
    (spelled : ∀ value, words.lookup (spell value) = some value) : (word words spell).Lossless := by
  intro value
  show wordValue words (spell value) = .ok value
  rw [wordValue, spelled]

/-- Reading null as a value does not concern what is never stored as null. -/
theorem read_nullAs {codec : Codec α} {stored : Json} (value : α) (notNull : stored ≠ .null) :
    (nullAs value codec).read stored = codec.read stored := by
  cases stored with
  | null => exact absurd rfl notNull
  | _ => rfl

@[simp] theorem lossless_nullAs {codec : Codec α} (value : α) (lossless : codec.Lossless)
    (neverNull : codec.NeverNull) : (nullAs value codec).Lossless :=
  fun stored => (read_nullAs value (neverNull stored)).trans (lossless stored)

theorem orNull_of_ne {codec : Codec α} {stored : Json} (notNull : stored ≠ .null) :
    codec.orNull stored = do return some (← codec.read stored) := by
  cases stored with
  | null => exact absurd rfl notNull
  | _ => rfl

@[simp] theorem orNull_write {codec : Codec α} (lossless : codec.Lossless)
    (neverNull : codec.NeverNull) (value : α) : codec.orNull (codec.write value) = .ok (some value) := by
  rw [orNull_of_ne (neverNull value), lossless value]
  rfl

end Codec

@[simp] theorem Codec.lossless_list {α : Type} {item : Codec α} (lossless : item.Lossless) :
    (list item).Lossless := by
  intro values
  have each : (values.map item.write).mapM item.read = .ok (values.map id) :=
    mapM_eq_ok_map fun value _ => lossless value
  rw [List.map_id] at each
  exact each

@[simp] theorem Counter.read_write (value : UInt32) :
    Counter.read (Counter.write value) = .ok (some value) := by
  have small : value.toUInt64.toNat < UInt32.size := by
    rw [UInt32.toNat_toUInt64]
    exact value.toNat_lt
  show (if value.toUInt64.toNat < UInt32.size then _ else _) = _
  rw [if_pos small]
  simp

/-! ### Fields -/

namespace Field

variable {α β : Type}

/-- Reads into a target what a field writes for a source. -/
def reread (field : Field α) (source target : α) : Except Fault α :=
  match field.write source with
  | some stored => field.read stored target
  | none => .ok target

/-- Two fields in the order of their keys, neither of which takes what the other writes. -/
def Apart (field other : Field α) : Prop :=
  field.name < other.name ∧ field.accepts other.name = false ∧ other.accepts field.name = false

instance (field other : Field α) : Decidable (field.Apart other) :=
  inferInstanceAs (Decidable (_ ∧ _ ∧ _))

@[simp] theorem accepts_name (field : Field α) : field.accepts field.name = true := by
  simp [accepts]

variable {name : String} {aliases : List String} {codec : Codec β} {source target : α}

theorem reread_of_read {get : α → β} {set : α → β → α} {value : β}
    (read : codec.read (codec.write (get source)) = .ok value) :
    (of name aliases codec get set).reread source target = .ok (set target value) := by
  show (do return set target (← codec.read (codec.write (get source)))) = _
  rw [read]
  rfl

@[simp] theorem reread_of {get : α → β} {set : α → β → α} (lossless : codec.Lossless) :
    (of name aliases codec get set).reread source target = .ok (set target (get source)) :=
  reread_of_read (lossless (get source))

section Optional

variable {get : α → Option β} {set : α → Option β → α}

/-- A value that is absent is not written, so the target keeps what it has. -/
theorem reread_optional {read : Json → Except Fault (Option β)} {write : β → Json}
    (reads : ∀ value, read (write value) = .ok (some value)) :
    (optional name aliases read write get set).reread source target =
      .ok ((get source).elim target fun value => set target (some value)) := by
  cases value : get source with
  | none => simp [reread, optional, value]
  | some value' =>
    simp only [reread, optional, value, Option.map_some]
    rw [reads]
    rfl

/-- A target that has no value yet gets just what the source has. -/
@[simp] theorem reread_optional_of_fresh {read : Json → Except Fault (Option β)} {write : β → Json}
    (reads : ∀ value, read (write value) = .ok (some value)) (fresh : set target none = target) :
    (optional name aliases read write get set).reread source target =
      .ok (set target (get source)) := by
  rw [reread_optional reads]
  cases get source with
  | none => rw [fresh]; rfl
  | some value => rfl

@[simp] theorem reread_orNull (lossless : codec.Lossless) (neverNull : codec.NeverNull)
    (fresh : set target none = target) :
    (orNull name aliases codec get set).reread source target = .ok (set target (get source)) :=
  reread_optional_of_fresh (Codec.orNull_write lossless neverNull) fresh

/-- The same of a target that may have a value already. -/
@[simp] theorem reread_orNull_elim (lossless : codec.Lossless) (neverNull : codec.NeverNull) :
    (orNull name aliases codec get set).reread source target =
      .ok ((get source).elim target fun value => set target (some value)) :=
  reread_optional (Codec.orNull_write lossless neverNull)

end Optional

@[simp] theorem reread_counter {get : α → Option UInt32} {set : α → Option UInt32 → α}
    (fresh : set target none = target) :
    (counter name get set).reread source target = .ok (set target (get source)) :=
  reread_optional_of_fresh Counter.read_write fresh

end Field

/-! ### Records -/

section Records

variable {α : Type} {fields : List (Field α)} {source target : α}

/-- Whether some field takes the entry under a key. -/
def known (fields : List (Field α)) (key : String) : Bool := fields.any (·.accepts key)

/-- Fields that stand in the order of their keys and do not take each other's entries. -/
def InOrder (fields : List (Field α)) : Prop := fields.Pairwise Field.Apart

instance (fields : List (Field α)) : Decidable (InOrder fields) :=
  inferInstanceAs (Decidable (fields.Pairwise Field.Apart))

/-- Reads into a target what fields write for a source. -/
def rereadAll (fields : List (Field α)) (source target : α) : Except Fault α :=
  fields.foldlM (fun target field => field.reread source target) target

@[simp] theorem rereadAll_nil : rereadAll [] source target = .ok target := rfl

@[simp] theorem rereadAll_cons (field : Field α) :
    rereadAll (field :: fields) source target =
      field.reread source target >>= rereadAll fields source :=
  List.foldlM_cons ..

/-- Entries under keys that no field has are passed over. -/
theorem readFields_under (seen : List String) (target : α) (entries : Fields) :
    readFields fields seen target (entries.under (known fields)) =
      readFields fields seen target entries := by
  induction entries generalizing seen target with
  | nil => rfl
  | cons entry rest ih =>
    obtain ⟨key, stored⟩ := entry
    cases found : fields.find? (·.accepts key) with
    | none =>
      have unknown : known fields key = false := by
        rw [known, List.any_eq_false]
        exact List.find?_eq_none.mp found
      rw [Fields.under_cons_of_not unknown, ih, readFields, found]
    | some field =>
      have isKnown : known fields key = true :=
        List.any_eq_true.mpr ⟨field, List.mem_of_find?_eq_some found, by
          simpa using List.find?_some found⟩
      rw [Fields.under_cons_of_chosen isKnown, readFields, readFields, found]
      simp only [ih]

/-- So what stands under such a key does not matter. -/
theorem readFields_insert_of_unknown {key : String} (unknown : known fields key = false)
    (stored : Json) (seen : List String) (target : α) (entries : Fields) :
    readFields fields seen target (entries.insert key stored) =
      readFields fields seen target entries := by
  rw [← readFields_under, Fields.under_insert_of_not stored unknown, readFields_under]

theorem find?_accepts_name (inOrder : InOrder fields) {field : Field α} (member : field ∈ fields) :
    fields.find? (·.accepts field.name) = some field := by
  induction fields with
  | nil => cases member
  | cons first rest ih =>
    obtain ⟨apart, later⟩ := List.pairwise_cons.mp inOrder
    rcases List.mem_cons.mp member with rfl | member
    · simp [field.accepts_name]
    · simp only [List.find?_cons, (apart field member).2.1]
      exact ih later member

theorem mem_writeFields {entry : String × Json} (member : entry ∈ writeFields fields source) :
    ∃ field ∈ fields, entry.1 = field.name ∧ field.write source = some entry.2 := by
  obtain ⟨field, isField, written⟩ := List.mem_filterMap.mp member
  obtain ⟨stored, writes, rfl⟩ := Option.map_eq_some_iff.mp written
  exact ⟨field, isField, rfl, writes⟩

theorem avoids_writeFields {keys : List String} (apart : ∀ field ∈ fields, field.name ∉ keys) :
    (writeFields fields source).Avoids keys := by
  intro entry member
  obtain ⟨field, isField, named, _⟩ := mem_writeFields member
  rw [named]
  exact apart field isField

/-- Under keys that no field takes, nothing is written. -/
theorem avoids_writeFields_of_unknown {keys : List String}
    (unknown : ∀ key ∈ keys, known fields key = false) :
    (writeFields fields source).Avoids keys := by
  refine avoids_writeFields fun field member isKey => ?_
  have isKnown : known fields field.name = true :=
    List.any_eq_true.mpr ⟨field, member, field.accepts_name⟩
  rw [unknown field.name isKey] at isKnown
  cases isKnown

theorem sorted_writeFields (inOrder : InOrder fields) : (writeFields fields source).Sorted := by
  refine List.Pairwise.filterMap _ ?_ inOrder
  intro field other apart entry written entry' written'
  obtain ⟨_, _, rfl⟩ := Option.map_eq_some_iff.mp written
  obtain ⟨_, _, rfl⟩ := Option.map_eq_some_iff.mp written'
  exact apart.1

theorem under_known_writeFields (fields : List (Field α)) (source : α) :
    (writeFields fields source).under (known fields) = writeFields fields source := by
  rw [Fields.under, List.filter_eq_self]
  intro entry member
  obtain ⟨field, isField, named, _⟩ := mem_writeFields member
  rw [named]
  exact List.any_eq_true.mpr ⟨field, isField, field.accepts_name⟩

/-- What stands under the key of a field is what the field writes. -/
theorem lookup_writeFields (inOrder : InOrder fields) {field : Field α} (member : field ∈ fields) :
    (writeFields fields source).lookup field.name = field.write source := by
  induction fields with
  | nil => cases member
  | cons first rest ih =>
    obtain ⟨apart, later⟩ := List.pairwise_cons.mp inOrder
    rcases List.mem_cons.mp member with rfl | member
    · cases written : field.write source with
      | none =>
        rw [writeFields, List.filterMap_cons_none (by rw [written]; rfl)]
        have avoids : (writeFields rest source).Avoids [field.name] := by
          refine avoids_writeFields fun other member isFirst => ?_
          exact ne_of_gt (apart other member).1 (List.mem_singleton.mp isFirst)
        exact Fields.lookup_eq_none_of_avoids avoids (List.mem_singleton_self _)
      | some stored =>
        rw [writeFields, List.filterMap_cons_some (by rw [written]; rfl), List.lookup_cons_self]
    · have different : (field.name == first.name) = false :=
        beq_eq_false_iff_ne.mpr (ne_of_gt (apart field member).1)
      rw [← ih later member]
      cases written : first.write source with
      | none => rw [writeFields, List.filterMap_cons_none (by rw [written]; rfl), writeFields]
      | some stored =>
        rw [writeFields, List.filterMap_cons_some (by rw [written]; rfl), List.lookup_cons,
          different, writeFields]

/-- Reading the entries of some of the fields into a target, when none of them had an entry yet. -/
theorem readFields_writeFields_of_mem (inOrder : InOrder fields) :
    ∀ {part : List (Field α)} {seen : List String} {target : α}, InOrder part →
      (∀ field ∈ part, field ∈ fields ∧ field.name ∉ seen) →
      readFields fields seen target (writeFields part source) = rereadAll part source target
  | [], _, _, _, _ => rfl
  | field :: rest, seen, target, partInOrder, unseen => by
    obtain ⟨apart, restInOrder⟩ := List.pairwise_cons.mp partInOrder
    obtain ⟨isField, isUnseen⟩ := unseen field List.mem_cons_self
    cases written : field.write source with
    | none =>
      have first : field.reread source target = .ok target := by rw [Field.reread, written]
      rw [rereadAll_cons, first, writeFields, List.filterMap_cons_none (by rw [written]; rfl)]
      exact readFields_writeFields_of_mem inOrder restInOrder fun other member =>
        unseen other (List.mem_cons_of_mem _ member)
    | some stored =>
      rw [writeFields, List.filterMap_cons_some (by rw [written]; rfl), readFields,
        find?_accepts_name inOrder isField]
      have first : field.reread source target = field.read stored target := by
        rw [Field.reread, written]
      have notSeen : ¬ seen.contains field.name := by simpa using isUnseen
      simp only [if_neg notSeen, rereadAll_cons, first]
      cases read : field.read stored target with
      | error fault => rfl
      | ok next =>
        refine readFields_writeFields_of_mem inOrder restInOrder fun other member => ?_
        refine ⟨(unseen other (List.mem_cons_of_mem _ member)).1, fun seenThen => ?_⟩
        rcases List.mem_cons.mp seenThen with same | seenBefore
        · exact absurd (apart other member).1 (by rw [same]; exact lt_irrefl _)
        · exact (unseen other (List.mem_cons_of_mem _ member)).2 seenBefore

/-- Whatever other entries stand between them, the entries that fields have written are read back one
field after the other. -/
theorem readFields_of_under (inOrder : InOrder fields) {entries : Fields}
    (own : entries.under (known fields) = writeFields fields source) (target : α) :
    readFields fields [] target entries = rereadAll fields source target := by
  rw [← readFields_under, own]
  exact readFields_writeFields_of_mem inOrder inOrder fun field member =>
    ⟨member, List.not_mem_nil⟩

/-- An entry under a key that no field has may stand among the entries of a record. -/
theorem readFields_insert (inOrder : InOrder fields) {key : String}
    (unknown : known fields key = false) (stored : Json) (source target : α) :
    readFields fields [] target ((writeFields fields source).insert key stored) =
      rereadAll fields source target :=
  readFields_of_under inOrder
    ((Fields.under_insert_of_not stored unknown _).trans (under_known_writeFields fields source))
    target

end Records

namespace Record

variable {α : Type} {form : Record α} {source result : α}

/-- A record is read from an object in which its own entries are those that it writes. -/
theorem read_obj_of_under (inOrder : InOrder form.fields) {entries : Fields}
    (own : entries.under (known form.fields) = writeFields form.fields source)
    (reread : rereadAll form.fields source form.blank = .ok result)
    (present : ∀ name ∈ form.required, (entries.lookup name).isSome) :
    form.codec.read (.obj entries) = .ok result := by
  have complete : (form.required.find? fun name => (entries.lookup name).isNone) = none := by
    rw [List.find?_eq_none]
    intro name member absent
    rw [Option.isNone_iff_eq_none] at absent
    simpa [absent] using present name member
  show form.readObject entries = .ok result
  rw [readObject, readFields_of_under inOrder own, reread]
  simp only [ok_bind, complete]

theorem readObject_insert_of_unknown {key : String} (unknown : known form.fields key = false)
    (noneRequired : form.required = []) (stored : Json) (entries : Fields) :
    form.readObject (entries.insert key stored) = form.readObject entries := by
  rw [readObject, readFields_insert_of_unknown unknown, readObject, noneRequired]
  rfl

theorem lossless_codec (inOrder : InOrder form.fields)
    (reread : ∀ source, rereadAll form.fields source form.blank = .ok source)
    (noneRequired : form.required = []) : form.codec.Lossless := by
  intro source
  refine read_obj_of_under inOrder (under_known_writeFields _ source) (reread source) ?_
  simp [noneRequired]

@[simp] theorem neverNull_codec (form : Record α) : form.codec.NeverNull := fun _ => Json.noConfusion

end Record

end IvrFlow
