import IvrFlow.Proofs.Json.Changes
import IvrFlow.Proofs.Record.Frame
import IvrFlow.Proofs.Record.Reading

/-!
Single entries of stored records. Most fields own a part of the record: they set it to what they
read, and no other field touches it (`Owns`). So the entry of such a field may stand anywhere among
the others (`toOption_readFields_middle`), may have an older key
(`Record.toOption_read_of_renamed`), and may be null instead of absent, if null is read as what the
part is before (`Record.read_eq_of_nullPut`).
-/

namespace IvrFlow

variable {α β : Type}

/-! ### Fields that own a part -/

namespace Field

/-- The field sets a part of the record to what is read. -/
def Sets (read : Json → Except Fault β) (set : α → β → α) (field : Field α) : Prop :=
  ∀ stored record, field.read stored record = (read stored).map (set record)

/-- Reading the field makes no difference to a change, made before or after. -/
def Passes (change : α → α) (field : Field α) : Prop :=
  ∀ stored record, field.read stored (change record) = (field.read stored record).map change

section

variable {name : String} {aliases : List String} {set : α → β → α} {change : α → α}

theorem Sets.passes {read : Json → Except Fault β} {field : Field α} (sets : field.Sets read set)
    (commutes : ∀ record value, set (change record) value = change (set record value)) :
    field.Passes change := by
  intro stored record
  rw [sets, sets]
  cases read stored with
  | error fault => rfl
  | ok value => exact congrArg Except.ok (commutes record value)

/-- Values that are read alike are alike for the field, errors left aside. -/
theorem Sets.toOption_read {read : Json → Except Fault β} {field : Field α}
    (sets : field.Sets read set) {stored other : Json}
    (same : (read stored).toOption = (read other).toOption) (record : α) :
    (field.read stored record).toOption = (field.read other record).toOption := by
  have toOption_map (outcome : Except Fault β) :
      (outcome.map (set record)).toOption = outcome.toOption.map (set record) := by
    cases outcome <;> rfl
  rw [sets, sets, toOption_map, toOption_map, same]

theorem sets_of {codec : Codec β} {get : α → β} :
    (Field.of name aliases codec get set).Sets codec.read set := fun _ _ => rfl

theorem sets_optional {read : Json → Except Fault (Option β)} {write : β → Json}
    {get : α → Option β} {set : α → Option β → α} :
    (Field.optional name aliases read write get set).Sets read set := fun _ _ => rfl

theorem sets_orNull {codec : Codec β} {get : α → Option β} {set : α → Option β → α} :
    (Field.orNull name aliases codec get set).Sets codec.orNull set := sets_optional

theorem sets_counter {get : α → Option UInt32} {set : α → Option UInt32 → α} :
    (Field.counter name get set).Sets Counter.read set := sets_optional

end

end Field

/-- Of some fields, the one with a name has some older keys and sets a part of the record to what is
read; the others make no difference to that part. -/
structure Owns (fields : List (Field α)) (name : String) (aliases : List String)
    (read : Json → Except Fault β) (set : α → β → α) : Prop where
  own : ∀ field ∈ fields, field.name = name → field.aliases = aliases ∧ field.Sets read set
  others : ∀ field ∈ fields, field.name ≠ name → ∀ value, field.Passes (set · value)

namespace Owns

section

variable {fields : List (Field α)} {field : Field α} {name : String} {aliases : List String}
  {read : Json → Except Fault β} {set : α → β → α}

theorem nil : Owns [] name aliases read set where
  own := List.forall_mem_nil _
  others := List.forall_mem_nil _

/-- The field with the name stands before fields with other names. -/
theorem self (sets : field.Sets read set) (named : field.name = name)
    (older : field.aliases = aliases) (rest : Owns fields name aliases read set) :
    Owns (field :: fields) name aliases read set where
  own := List.forall_mem_cons.mpr ⟨fun _ => ⟨older, sets⟩, rest.own⟩
  others := List.forall_mem_cons.mpr ⟨fun different => absurd named different, rest.others⟩

/-- A field with another name sets another part. -/
theorem other {γ : Type} {readOther : Json → Except Fault γ} {setOther : α → γ → α}
    (sets : field.Sets readOther setOther) (different : (field.name == name) = false)
    (commutes : (fun record value part => setOther (set record value) part) =
      fun record value part => set (setOther record part) value)
    (rest : Owns fields name aliases read set) : Owns (field :: fields) name aliases read set where
  own := List.forall_mem_cons.mpr
    ⟨fun named => absurd named (beq_eq_false_iff_ne.mp different), rest.own⟩
  others := List.forall_mem_cons.mpr
    ⟨fun _ value => sets.passes fun record part => congrFun₃ commutes record value part,
      rest.others⟩

end

end Owns

/-! ### Reading around an entry -/

section Reading

variable {fields : List (Field α)} {seen : List String} {record : α} {before after : Fields}
  {key name : String} {stored : Json}

/-- The fields that have had an entry once some entries are read. -/
def seenAfter (fields : List (Field α)) (seen : List String) : Fields → List String
  | [] => seen
  | (key, _) :: rest =>
    match fields.find? (·.accepts key) with
    | none => seenAfter fields seen rest
    | some field => seenAfter fields (field.name :: seen) rest

/-- No entry goes to the field with a name. -/
def Lacks (fields : List (Field α)) (name : String) (entries : Fields) : Prop :=
  ∀ entry ∈ entries, ∀ field, fields.find? (·.accepts entry.1) = some field → field.name ≠ name

theorem readFields_append :
    readFields fields seen record (before ++ after) =
      readFields fields seen record before >>= fun middle =>
        readFields fields (seenAfter fields seen before) middle after := by
  induction before generalizing seen record with
  | nil => rfl
  | cons entry rest ih =>
    obtain ⟨key, stored⟩ := entry
    rw [List.cons_append, readFields, readFields, seenAfter]
    cases fields.find? (·.accepts key) with
    | none => exact ih
    | some field =>
      simp only
      split
      · rfl
      · rw [bind_assoc]
        exact congrArg _ (funext fun _ => ih)

/-- Whether a field that has no entries has been seen does not matter. -/
theorem notMem_seenAfter {entries : Fields} (lacks : Lacks fields name entries)
    (unseen : name ∉ seen) : name ∉ seenAfter fields seen entries := by
  induction entries generalizing seen with
  | nil => exact unseen
  | cons entry rest ih =>
    obtain ⟨isOther, restLacks⟩ := List.forall_mem_cons.mp lacks
    rw [seenAfter]
    cases found : fields.find? (·.accepts entry.1) with
    | none => exact ih restLacks unseen
    | some field =>
      refine ih restLacks fun member => ?_
      rcases List.mem_cons.mp member with same | before
      · exact isOther field found same.symm
      · exact unseen before

theorem readFields_congr_seen {entries : Fields} (lacks : Lacks fields name entries)
    {seen others : List String} (same : ∀ other, other ≠ name → (other ∈ seen ↔ other ∈ others)) :
    readFields fields seen record entries = readFields fields others record entries := by
  induction entries generalizing seen others record with
  | nil => rfl
  | cons entry rest ih =>
    obtain ⟨key, stored⟩ := entry
    obtain ⟨isOther, restLacks⟩ := List.forall_mem_cons.mp lacks
    rw [readFields, readFields]
    cases found : fields.find? (·.accepts key) with
    | none => exact ih restLacks same
    | some field =>
      have sameHere := same field.name (isOther field found)
      simp only [List.contains_iff_mem, sameHere]
      split
      · rfl
      · refine congrArg _ (funext fun next => ih restLacks fun other different => ?_)
        rw [List.mem_cons, List.mem_cons, same other different]

/-- A change that every field with an entry passes can be made before or after reading. -/
theorem readFields_map {entries : Fields} {change : α → α}
    (passes : ∀ field ∈ fields, field.name ≠ name → field.Passes change)
    (lacks : Lacks fields name entries) :
    readFields fields seen (change record) entries =
      (readFields fields seen record entries).map change := by
  induction entries generalizing seen record with
  | nil => rfl
  | cons entry rest ih =>
    obtain ⟨key, stored⟩ := entry
    obtain ⟨isOther, restLacks⟩ := List.forall_mem_cons.mp lacks
    rw [readFields, readFields]
    cases found : fields.find? (·.accepts key) with
    | none => exact ih restLacks
    | some field =>
      simp only
      split
      · rfl
      · rw [passes field (List.mem_of_find?_eq_some found) (isOther field found) stored record]
        cases field.read stored record with
        | error fault => rfl
        | ok next => exact ih restLacks

/-- An entry that another value may stand for is read as with that value. -/
theorem readFields_congr_middle {other : Json}
    (same : ∀ field, fields.find? (·.accepts key) = some field →
      ∀ record, field.read stored record = field.read other record) :
    readFields fields seen record (before ++ (key, stored) :: after) =
      readFields fields seen record (before ++ (key, other) :: after) := by
  rw [readFields_append, readFields_append]
  refine congrArg _ (funext fun middle => ?_)
  rw [readFields, readFields]
  cases found : fields.find? (·.accepts key) with
  | none => rfl
  | some field => simp only [same field found]

/-- The same, errors left aside. -/
theorem toOption_readFields_congr_middle {other : Json}
    (same : ∀ field, fields.find? (·.accepts key) = some field →
      ∀ record, (field.read stored record).toOption = (field.read other record).toOption) :
    (readFields fields seen record (before ++ (key, stored) :: after)).toOption =
      (readFields fields seen record (before ++ (key, other) :: after)).toOption := by
  rw [readFields_append, readFields_append, toOption_bind, toOption_bind]
  refine congrArg _ (funext fun middle => ?_)
  rw [readFields, readFields]
  cases found : fields.find? (·.accepts key) with
  | none => rfl
  | some field =>
    simp only
    split
    · rfl
    · rw [toOption_bind, toOption_bind, same field found]

/-- An entry that no field takes may hold anything. -/
theorem readFields_middle_of_unknown (unknown : known fields key = false) :
    readFields fields seen record (before ++ (key, stored) :: after) =
      readFields fields seen record (before ++ after) := by
  have noneKnown : Fields.under (known fields) ((key, stored) :: after) =
      Fields.under (known fields) after := Fields.under_cons_of_not unknown after
  rw [← readFields_under, Fields.under, List.filter_append, ← Fields.under, ← Fields.under,
    noneKnown, Fields.under, Fields.under, ← List.filter_append, ← Fields.under, readFields_under]

end Reading

section Owned

variable {fields : List (Field α)} {name : String} {aliases : List String}
  {read : Json → Except Fault β} {set : α → β → α} {record : α} {before after : Fields}
  {key : String} {stored : Json}

theorem Owns.lacks (owns : Owns fields name aliases read set) {entries : Fields}
    (avoids : entries.Avoids (name :: aliases)) : Lacks fields name entries := by
  intro entry member field found named
  have accepts : field.accepts entry.1 = true := by simpa using List.find?_some found
  have older := (owns.own field (List.mem_of_find?_eq_some found) named).1
  rw [Field.accepts, named, older, Bool.or_eq_true, beq_iff_eq, List.contains_iff_mem] at accepts
  exact avoids entry member (List.mem_cons.mpr accepts)

/-- The field that takes a key reads alike what is read alike for its part. -/
theorem Owns.read_congr (owns : Owns fields name aliases read set)
    (taken : (fields.find? (·.accepts key)).map (·.name) = some name) {other : Json}
    (same : read stored = read other) (field : Field α)
    (found : fields.find? (·.accepts key) = some field) (record : α) :
    field.read stored record = field.read other record := by
  rw [found] at taken
  have sets := (owns.own field (List.mem_of_find?_eq_some found) (Option.some.inj taken)).2
  rw [sets, sets, same]

/-- The same, errors left aside. -/
theorem Owns.toOption_read_congr (owns : Owns fields name aliases read set)
    (taken : (fields.find? (·.accepts key)).map (·.name) = some name) {other : Json}
    (same : (read stored).toOption = (read other).toOption) (field : Field α)
    (found : fields.find? (·.accepts key) = some field) (record : α) :
    (field.read stored record).toOption = (field.read other record).toOption := by
  rw [found] at taken
  have sets := (owns.own field (List.mem_of_find?_eq_some found) (Option.some.inj taken)).2
  exact sets.toOption_read same record

/-- The entry of a field that owns a part can be read first, if it is read at all. -/
theorem Owns.readFields_middle (owns : Owns fields name aliases read set)
    (taken : (fields.find? (·.accepts key)).map (·.name) = some name)
    (avoids : Fields.Avoids (name :: aliases) (before ++ after)) {value : β}
    (reads : read stored = .ok value) :
    readFields fields [] record (before ++ (key, stored) :: after) =
      readFields fields [] (set record value) (before ++ after) := by
  obtain ⟨field, found, named⟩ := Option.map_eq_some_iff.mp taken
  have isField := List.mem_of_find?_eq_some found
  have sets := (owns.own field isField named).2
  have passes := fun other isOther different => owns.others other isOther different value
  obtain ⟨avoidsBefore, avoidsAfter⟩ := Fields.avoids_append.mp avoids
  have unseen : name ∉ seenAfter fields [] before :=
    notMem_seenAfter (owns.lacks avoidsBefore) List.not_mem_nil
  rw [readFields_append, readFields_append, readFields_map passes (owns.lacks avoidsBefore)]
  cases readFields fields [] record before with
  | error fault => rfl
  | ok middle =>
    show readFields fields (seenAfter fields [] before) middle ((key, stored) :: after) =
      readFields fields (seenAfter fields [] before) (set middle value) after
    rw [readFields, found]
    simp only [named, List.contains_iff_mem, unseen, if_false, sets stored middle, reads]
    refine readFields_congr_seen (owns.lacks avoidsAfter) fun other different => ?_
    rw [List.mem_cons]
    exact or_iff_right different

/-- So where the entry stands, and under which of its keys, does not matter, errors left aside. -/
theorem Owns.toOption_readFields_middle (owns : Owns fields name aliases read set)
    (taken : (fields.find? (·.accepts key)).map (·.name) = some name)
    (avoids : Fields.Avoids (name :: aliases) (before ++ after)) :
    (readFields fields [] record (before ++ (key, stored) :: after)).toOption =
      (read stored).toOption.bind fun value =>
        (readFields fields [] (set record value) (before ++ after)).toOption := by
  cases reads : read stored with
  | ok value =>
    rw [owns.readFields_middle taken avoids reads]
    rfl
  | error fault =>
    obtain ⟨field, found, named⟩ := Option.map_eq_some_iff.mp taken
    have sets := (owns.own field (List.mem_of_find?_eq_some found) named).2
    rw [readFields_append, toOption_bind]
    refine Option.bind_eq_none_iff.mpr fun middle _ => ?_
    rw [readFields, found]
    simp only [sets stored middle, reads]
    split <;> rfl

/-- An entry that is moved from an older key to the newer one is read alike, errors left aside. -/
theorem Owns.toOption_readFields_renamed {older : String}
    (owns : Owns fields name [older] read set)
    (taken : ∀ key ∈ [name, older], (fields.find? (·.accepts key)).map (·.name) = some name)
    (avoids : Fields.Avoids [name, older] (before ++ after)) :
    (readFields fields [] record (before ++ (older, stored) :: after)).toOption =
      (readFields fields [] record (Fields.insert name stored (before ++ after))).toOption := by
  have isNew : Fields.Avoids [name] (before ++ after) :=
    avoids.mono (List.cons_subset_cons name (List.nil_subset _))
  obtain ⟨first, later, split, inserted⟩ := Fields.exists_insert_eq isNew stored
  rw [owns.toOption_readFields_middle (taken older (by simp)) avoids, inserted,
    owns.toOption_readFields_middle (taken name (by simp)) (split ▸ avoids), split]

end Owned

/-! ### Changed records -/

namespace Record

variable {form : Record α} {name : String} {aliases : List String}
  {read : Json → Except Fault β} {set : α → β → α} {stored other : Json}

/-- The field at a position stands between those before and those after it. -/
theorem exists_field_at {fields : List (Field α)} {position : Nat}
    (isThere : (fields[position]?).map (·.name) = some name) :
    ∃ earlier field later, fields = earlier ++ field :: later ∧ position = earlier.length ∧
      field.name = name := by
  obtain ⟨field, found, named⟩ := Option.map_eq_some_iff.mp isThere
  obtain ⟨earlier, later, split, length⟩ := exists_split_at found
  exact ⟨earlier, field, later, split, length, named⟩

section Items

variable {fields earlier later : List (Field α)} {record : α} {items more : List Json}

/-- The items of an array go to the fields one by one. -/
theorem readItems_append (length : items.length = earlier.length) :
    readItems record (earlier ++ later) (items ++ more) =
      readItems record earlier items >>= fun result => readItems result.1 later more := by
  induction earlier generalizing record items with
  | nil =>
    rw [List.length_eq_zero_iff.mp length]
    rfl
  | cons field rest ih =>
    cases items with
    | nil => cases length
    | cons item items =>
      simp only [List.cons_append, readItems, bind_assoc, ih (Nat.succ.inj length)]

theorem readItems_map {change : α → α} (passes : ∀ field ∈ fields, field.Passes change) :
    readItems (change record) fields items =
      (readItems record fields items).map fun result => (change result.1, result.2) := by
  induction fields generalizing record items with
  | nil => rfl
  | cons field rest ih =>
    obtain ⟨isPassed, restPasses⟩ := List.forall_mem_cons.mp passes
    cases items with
    | nil => rfl
    | cons item items =>
      rw [readItems, readItems, isPassed item record]
      cases field.read item record with
      | error fault => rfl
      | ok next => exact ih restPasses

end Items

/-- Null in the place of a field that a stored record does not have: under the key of the field, or
after the last item of an array that ends before it. -/
inductive NullPut (form : Record α) (name : String) (aliases : List String) :
    Json → Json → Prop where
  | entry {stored other : Json} : Json.NullPut name aliases stored other →
      NullPut form name aliases stored other
  | item {items : List Json} :
      (form.positions[items.length]?).map (·.name) = some name →
      NullPut form name aliases (.arr items) (.arr (items ++ [.null]))

theorem NullPut.ne_null (put : form.NullPut name aliases stored other) :
    stored ≠ .null ∧ other ≠ .null := by
  cases put with
  | entry put =>
    cases put
    exact ⟨nofun, nofun⟩
  | item _ => exact ⟨nofun, nofun⟩

/-- **Null is as good as nothing** where it is read as what a blank record has. -/
theorem read_eq_of_nullPut (owns : Owns form.fields name aliases read set)
    (taken : (form.fields.find? (·.accepts name)).map (·.name) = some name)
    (ownsToo : Owns form.positions name aliases read set)
    (distinct : (form.positions.map (·.name)).Nodup) (noneRequired : form.required = [])
    {value : β} (reads : read .null = .ok value) (isBlank : set form.blank value = form.blank)
    (put : form.NullPut name aliases stored other) :
    form.codec.read stored = form.codec.read other := by
  cases put with
  | entry put =>
    obtain @⟨entries, avoids⟩ := put
    obtain ⟨before, after, rfl, inserted⟩ := Fields.exists_insert_eq
      (avoids.mono (List.cons_subset_cons name (List.nil_subset _))) .null
    show form.readObject (before ++ after) = form.readObject _
    rw [readObject, readObject, inserted, owns.readFields_middle taken avoids reads, isBlank,
      noneRequired]
    rfl
  | @item items isNext =>
    obtain ⟨earlier, field, later, split, length, named⟩ := exists_field_at isNext
    have sets : field.Sets read set := (ownsToo.own field (by simp [split]) named).2
    have passes : ∀ other ∈ earlier, other.Passes (set · value) := by
      intro other isEarlier
      refine ownsToo.others other (by simp [split, isEarlier]) (fun same => ?_) value
      rw [split, List.map_append, List.map_cons, List.nodup_append] at distinct
      exact distinct.2.2 _ (List.mem_map_of_mem isEarlier) _ List.mem_cons_self
        (same.trans named.symm)
    have shorter : readItems form.blank (earlier ++ field :: later) items =
        readItems form.blank earlier items >>= fun result =>
          readItems result.1 (field :: later) [] := by
      rw [← readItems_append length, List.append_nil]
    have before : readItems (set form.blank value) earlier items =
        (readItems form.blank earlier items).map fun result => (set result.1 value, result.2) :=
      readItems_map passes
    rw [isBlank] at before
    show form.readArray items = form.readArray (items ++ [.null])
    rw [readArray, readArray, noneRequired, split, shorter, readItems_append length]
    cases outcome : readItems form.blank earlier items with
    | error fault => rfl
    | ok result =>
      rw [outcome] at before
      have same : set result.1 value = result.1 := congrArg Prod.fst (Except.ok.inj before.symm)
      have null : readItems result.1 (field :: later) [.null] = .ok (result.1, []) := by
        rw [readItems, sets, reads]
        show readItems (set result.1 value) later [] = _
        rw [same]
        cases later <;> rfl
      have nothing : readItems result.1 (field :: later) [] = .ok (result.1, []) := rfl
      simp only [ok_bind, null, nothing, List.isEmpty_nil, if_true, List.length_nil,
        Nat.not_lt_zero, if_false]

/-- A record in which the value of a field is changed. -/
inductive Changed (form : Record α) (name : String) (change : Json → Json → Prop) :
    Json → Json → Prop where
  | entry {before after : Fields} {key : String} {value other : Json} :
      (form.fields.find? (·.accepts key)).map (·.name) = some name → change value other →
      Changed form name change (.obj (before ++ (key, value) :: after))
        (.obj (before ++ (key, other) :: after))
  | item {before after : List Json} {value other : Json} :
      (form.positions[before.length]?).map (·.name) = some name → change value other →
      Changed form name change (.arr (before ++ value :: after)) (.arr (before ++ other :: after))

/-- What stands under a key that another field takes, or none, is not changed. -/
theorem Changed.get?_of_other {change : Json → Json → Prop}
    (changed : form.Changed name change stored other) {key : String}
    (untaken : (form.fields.find? (·.accepts key)).map (·.name) ≠ some name) :
    stored.get? key = other.get? key := by
  cases changed with
  | @entry before after changedKey value next taken _ =>
    have different : key ≠ changedKey := by
      rintro rfl
      exact untaken taken
    show List.lookup key _ = List.lookup key _
    exact Fields.lookup_changed different
  | item _ _ => rfl

/-- An entry that no field takes may as well not be there. -/
theorem readObject_middle_of_unknown {before after : Fields} {key : String} {value : Json}
    (unknown : known form.fields key = false) (noneRequired : form.required = []) :
    form.readObject (before ++ (key, value) :: after) = form.readObject (before ++ after) := by
  rw [readObject, readObject, readFields_middle_of_unknown unknown, noneRequired]
  rfl

/-- **A value of a field that is read alike leaves the record alike**, errors left aside. -/
theorem toOption_read_of_changed {change : Json → Json → Prop}
    (owns : Owns form.fields name aliases read set)
    (ownsToo : Owns form.positions name aliases read set)
    (same : ∀ {value other}, change value other → (read value).toOption = (read other).toOption)
    (changed : form.Changed name change stored other) :
    (form.codec.read stored).toOption = (form.codec.read other).toOption := by
  cases changed with
  | @entry before after key value other taken isChange =>
    have entries :
        (readFields form.fields [] form.blank (before ++ (key, value) :: after)).toOption =
          (readFields form.fields [] form.blank (before ++ (key, other) :: after)).toOption :=
      toOption_readFields_congr_middle (owns.toOption_read_congr taken (same isChange))
    show (form.readObject _).toOption = (form.readObject _).toOption
    rw [readObject, readObject, toOption_bind, toOption_bind, entries]
    simp only [Fields.isNone_lookup_changed other]
  | @item before after value other isNext isChange =>
    obtain ⟨earlier, field, later, split, length, named⟩ := exists_field_at isNext
    have sets : field.Sets read set := (ownsToo.own field (by simp [split]) named).2
    show (form.readArray _).toOption = (form.readArray _).toOption
    rw [readArray, readArray, split, readItems_append length, readItems_append length]
    simp only [List.length_append, List.length_cons]
    split
    · rfl
    · simp only [toOption_bind, readItems, sets.toOption_read (same isChange)]

/-- **A field may have an entry under an older key** instead of its own, errors left aside. -/
theorem toOption_read_of_renamed {older : String} (owns : Owns form.fields name [older] read set)
    (taken : ∀ key ∈ [name, older],
      (form.fields.find? (·.accepts key)).map (·.name) = some name)
    (noneRequired : form.required = []) (renamed : Json.Renamed older name stored other) :
    (form.codec.read stored).toOption = (form.codec.read other).toOption := by
  obtain @⟨before, after, value, avoids⟩ := renamed
  show (form.readObject _).toOption = (form.readObject _).toOption
  rw [readObject, readObject, toOption_bind, toOption_bind, noneRequired,
    owns.toOption_readFields_renamed taken avoids]
  rfl

end Record

end IvrFlow
