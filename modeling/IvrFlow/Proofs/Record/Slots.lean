import IvrFlow.Proofs.Record.Counter
import IvrFlow.Proofs.Record.Entries

/-!
Slots, which are the places of counters in what is read. Where a reader gives something with a slot
in it, and another counter is stored in that place, the reader answers with that counter in the
slot, or with what is wrong with it (`Answers`). Readers that are made of such readers answer alike.
What is written may show the counters of slots (`Slot.ShownBy`).
-/

namespace IvrFlow

variable {α β ε : Type}

/-! ### Slots -/

/-- What is stored at an index of an array. -/
def Json.item? (index : Nat) (stored : Json) : Option Json := stored.items?.bind (·[index]?)

/-- A place for a counter. It is there in some of the values of a type, and in these what is put
there is found there. -/
structure Slot (α : Type) where
  here : α → Prop
  get : α → Option UInt32
  set : Option UInt32 → α → α
  get_set : ∀ {value}, here value → ∀ counter, get (set counter value) = counter

namespace Slot

/-- A field of a record, which is always there. -/
def field (get : α → Option UInt32) (set : α → Option UInt32 → α)
    (get_set : ∀ value counter, get (set value counter) = counter := by exact fun _ _ => rfl) :
    Slot α where
  here _ := True
  get := get
  set counter value := set value counter
  get_set _ := get_set _

/-- A slot in a part of a value. -/
def within (slot : Slot β) (part : α → β) (replace : α → β → α)
    (replaced : ∀ value new, part (replace value new) = new := by exact fun _ _ => rfl) :
    Slot α where
  here value := slot.here (part value)
  get value := slot.get (part value)
  set counter value := replace value (slot.set counter (part value))
  get_set isHere counter := by
    rw [replaced]
    exact slot.get_set isHere counter

/-- A slot in the second of two values. -/
def second (slot : Slot β) : Slot (α × β) := slot.within (·.2) fun pair value => (pair.1, value)

/-- A slot in a part that only some values have. -/
def inside (slot : Slot β) (part? : α → Option β) (edit : (β → β) → α → α)
    (edited : ∀ {value part}, part? value = some part → ∀ change,
      part? (edit change value) = some (change part)) : Slot α where
  here value := ∃ part, part? value = some part ∧ slot.here part
  get value := (part? value).bind slot.get
  set counter := edit (slot.set counter)
  get_set := by
    rintro value ⟨part, found, isHere⟩ counter
    rw [edited found, Option.bind_some, slot.get_set isHere]

/-- A slot in one of the forms that values have. -/
def variant (slot : Slot β) (body? : α → Option β) (wrap : β → α)
    (isForm : ∀ value body, body? value = some body ↔ value = wrap body := by
      intro value body; cases value <;> simp) : Slot α :=
  slot.inside body? (fun change value => ((body? value).map (wrap ∘ change)).getD value)
    fun found change => by
      rw [found, isForm]
      rfl

/-- A slot in an item of a list. -/
def item (slot : Slot α) (index : Nat) : Slot (List α) :=
  slot.inside (·[index]?) (fun change values => values.modify index change) fun found change => by
    rw [List.getElem?_modify_eq, found]
    rfl

/-- What is done to a value leaves a slot in it alone. -/
def KeptBy (slot : Slot α) (change : α → α) : Prop :=
  ∀ value, slot.here value → slot.here (change value) ∧
    ∀ counter, change (slot.set counter value) = slot.set counter (change value)

theorem KeptBy.id (slot : Slot α) : slot.KeptBy id := fun _ isHere => ⟨isHere, fun _ => rfl⟩

theorem KeptBy.field {get : α → Option UInt32} {set : α → Option UInt32 → α}
    {get_set : ∀ value counter, get (set value counter) = counter} {change : α → α}
    (keeps : ∀ value counter, change (set value counter) = set (change value) counter) :
    (Slot.field get set get_set).KeptBy change :=
  fun value _ => ⟨trivial, keeps value⟩

section Variant

variable {slot : Slot β} {body? : α → Option β} {wrap : β → α}
  {isForm : ∀ value body, body? value = some body ↔ value = wrap body}

theorem variant_here {body : β} (isHere : slot.here body) :
    (slot.variant body? wrap isForm).here (wrap body) :=
  ⟨body, (isForm _ _).mpr rfl, isHere⟩

theorem variant_get (body : β) :
    (slot.variant body? wrap isForm).get (wrap body) = slot.get body := by
  show (body? (wrap body)).bind slot.get = _
  rw [(isForm _ _).mpr rfl]
  rfl

theorem variant_set (counter : Option UInt32) (body : β) :
    (slot.variant body? wrap isForm).set counter (wrap body) = wrap (slot.set counter body) := by
  show ((body? (wrap body)).map (wrap ∘ slot.set counter)).getD (wrap body) = _
  rw [(isForm _ _).mpr rfl]
  rfl

theorem variant_keptBy {change : α → α} {inner : β → β} (kept : slot.KeptBy inner)
    (changes : ∀ body, change (wrap body) = wrap (inner body)) :
    (slot.variant body? wrap isForm).KeptBy change := by
  rintro value ⟨body, found, isHere⟩
  obtain rfl := (isForm _ _).mp found
  obtain ⟨isHereToo, keeps⟩ := kept body isHere
  refine ⟨by rw [changes]; exact variant_here isHereToo, fun counter => ?_⟩
  rw [variant_set, changes, changes, variant_set, keeps]

end Variant

/-- What is written for a value has the counter of a slot, as a number, where it is looked for. -/
def ShownBy (slot : Slot α) (write : α → Json) (find : Json → Option Json) : Prop :=
  ∀ value, slot.here value → find (write value) = (slot.get value).map Counter.write

namespace ShownBy

variable {write : α → Json} {find : Json → Option Json}

theorem within {slot : Slot β} {part : α → β} {replace : α → β → α}
    {replaced : ∀ value new, part (replace value new) = new} {inner : β → Json} {key : String}
    (shown : slot.ShownBy inner find)
    (holds : ∀ value, (write value).get? key = some (inner (part value))) :
    (slot.within part replace replaced).ShownBy write fun stored =>
      (stored.get? key).bind find := by
  intro value isHere
  show ((write value).get? key).bind find = _
  rw [holds, Option.bind_some]
  exact shown (part value) isHere

theorem variant {slot : Slot β} {body? : α → Option β} {wrap : β → α}
    {isForm : ∀ value body, body? value = some body ↔ value = wrap body}
    (shown : slot.ShownBy (fun body => write (wrap body)) find) :
    (slot.variant body? wrap isForm).ShownBy write find := by
  rintro value ⟨body, found, isHere⟩
  obtain rfl := (isForm _ _).mp found
  rw [variant_get]
  exact shown body isHere

theorem item {slot : Slot α} (shown : slot.ShownBy write find) (index : Nat) :
    (slot.item index).ShownBy (fun values => .arr (values.map write)) fun stored =>
      (stored.item? index).bind find := by
  rintro values ⟨value, found, isHere⟩
  show (values.map write)[index]?.bind find = (values[index]?.bind slot.get).map Counter.write
  rw [List.getElem?_map, show values[index]? = some value from found]
  exact shown value isHere

end ShownBy

end Slot

/-! ### Answers -/

/-- Where the first outcome is a value with the slot in it, the second is this value with the
counter that is given in the slot, or the error that is given. -/
def Answers (slot : Slot α) (given : Except ε (Option UInt32)) (first second : Except ε α) : Prop :=
  ∀ value, first = .ok value → slot.here value ∧ second = given.map (slot.set · value)

namespace Answers

variable {slot : Slot α} {given : Except ε (Option UInt32)} {first second : Except ε α}

/-- What is done with a value is done alike with another counter in the slot. -/
theorem bind (answers : Answers slot given first second) {slotToo : Slot β}
    {next : α → Except ε β}
    (passes : ∀ value result, slot.here value → next value = .ok result →
      slotToo.here result ∧
        ∀ counter, next (slot.set counter value) = .ok (slotToo.set counter result)) :
    Answers slotToo given (first >>= next) (second >>= next) := by
  intro result succeeds
  obtain ⟨value, isValue, isResult⟩ := bind_eq_ok_iff.mp succeeds
  obtain ⟨isHere, rfl⟩ := answers value isValue
  obtain ⟨isHereToo, passed⟩ := passes value result isHere isResult
  refine ⟨isHereToo, ?_⟩
  cases given with
  | error error => rfl
  | ok counter => exact passed counter

/-- What comes before is the same. -/
theorem bind_of_next {next nextToo : α → Except ε β} {slot : Slot β}
    (each : ∀ value, Answers slot given (next value) (nextToo value)) (outcome : Except ε α) :
    Answers slot given (outcome >>= next) (outcome >>= nextToo) := by
  cases outcome with
  | error error => exact fun value succeeds => nomatch succeeds
  | ok value => exact each value

/-- Of a list that is read item by item, one item answers. -/
theorem mapM_middle {γ : Type} {read : γ → Except ε α} {item other : γ}
    (answers : Answers slot given (read item) (read other)) (before after : List γ) :
    Answers (slot.item before.length) given ((before ++ item :: after).mapM read)
      ((before ++ other :: after).mapM read) := by
  intro values succeeds
  rw [List.mapM_append, List.mapM_cons] at succeeds ⊢
  obtain ⟨early, isEarly, succeeds⟩ := bind_eq_ok_iff.mp succeeds
  obtain ⟨rest, isRest, isValues⟩ := bind_eq_ok_iff.mp succeeds
  obtain ⟨value, isValue, isRest⟩ := bind_eq_ok_iff.mp isRest
  obtain ⟨late, isLate, isRest⟩ := bind_eq_ok_iff.mp isRest
  cases isRest
  cases isValues
  obtain ⟨isHere, isOther⟩ := answers value isValue
  have length : before.length = early.length := (mapM_eq_ok_iff.mp isEarly).length_eq
  rw [isEarly, isOther, isLate, length]
  refine ⟨⟨value, by simp, isHere⟩, ?_⟩
  cases given with
  | error error => rfl
  | ok counter => exact congrArg Except.ok (modify_middle early late value (slot.set counter)).symm

end Answers

/-! ### Entries that hold counters -/

namespace Fields

/-- Entries with another one between them, if there is something for it to hold. -/
def around (before after : Fields) (key : String) : Option Json → Fields
  | none => before ++ after
  | some stored => before ++ (key, stored) :: after

/-- Other keys are looked up as they are without the entry. -/
theorem lookup_around {before after : Fields} {key other : String} (different : other ≠ key)
    (held : Option Json) :
    (around before after key held).lookup other = (before ++ after).lookup other := by
  cases held with
  | none => rfl
  | some stored => exact lookup_middle_of_ne different

end Fields

/-- Two objects that differ at most in what they hold under a key, if anything. The second holds
there what is given. -/
inductive Json.Put (key : String) (given : Option Json) : Json → Json → Prop where
  | intro {before after : Fields} {held : Option Json} : (before ++ after).Avoids [key] →
      Put key given (.obj (before.around after key held)) (.obj (before.around after key given))

/-- An array in which the item at an index is changed. -/
inductive Json.ItemAt (index : Nat) (change : Json → Json → Prop) : Json → Json → Prop where
  | intro {before after : List Json} {item other : Json} : before.length = index →
      change item other →
      ItemAt index change (.arr (before ++ item :: after)) (.arr (before ++ other :: after))

section Owned

variable {fields : List (Field α)} {name : String} {slot : Slot α} {blank : α}
  {before after : Fields}

/-- A field with a counter, which takes one key. A blank record has no counter there. -/
structure OwnsCounter (fields : List (Field α)) (name : String) (slot : Slot α) (blank : α) :
    Prop where
  owns : Owns fields name [] Counter.read fun record counter => slot.set counter record
  taken : (fields.find? (·.accepts name)).map (·.name) = some name
  again : ∀ record first second, slot.set second (slot.set first record) = slot.set second record
  absent : slot.set none blank = blank

/-- What is not read as a counter is refused where all before it is read. -/
theorem Owns.readFields_middle_of_error {read : Json → Except Fault β} {set : α → β → α}
    (owns : Owns fields name [] read set)
    (taken : (fields.find? (·.accepts name)).map (·.name) = some name)
    (avoids : before.Avoids [name]) {record middle : α} {stored : Json} {fault : Fault}
    (reads : readFields fields [] record before = .ok middle)
    (refused : read stored = .error fault) :
    readFields fields [] record (before ++ (name, stored) :: after) = .error fault := by
  obtain ⟨field, found, named⟩ := Option.map_eq_some_iff.mp taken
  have sets := (owns.own field (List.mem_of_find?_eq_some found) named).2
  have unseen : name ∉ seenAfter fields [] before :=
    notMem_seenAfter (owns.lacks avoids) List.not_mem_nil
  rw [readFields_append, reads]
  show readFields fields (seenAfter fields [] before) middle ((name, stored) :: after) = _
  rw [readFields, found]
  simp only [named, List.contains_iff_mem, unseen, if_false, sets stored middle, refused]
  rfl

namespace OwnsCounter

theorem readFields_set (counts : OwnsCounter fields name slot blank) {entries : Fields}
    (avoids : entries.Avoids [name]) (counter : Option UInt32) :
    readFields fields [] (slot.set counter blank) entries =
      (readFields fields [] blank entries).map (slot.set counter) :=
  readFields_map (fun field isField different =>
    counts.owns.others field isField different counter) (counts.owns.lacks avoids)

/-- Entries with a counter among them are read as those without it, and then the counter. -/
theorem readFields_around (counts : OwnsCounter fields name slot blank)
    (avoids : (before ++ after).Avoids [name]) {record : α}
    (reads : readFields fields [] blank (before ++ after) = .ok record) (held : Option Json) :
    readFields fields [] blank (before.around after name held) =
      (Counter.readOptional held).map (slot.set · record) := by
  have changed := counts.readFields_set avoids
  rw [reads] at changed
  cases held with
  | none =>
    have unchanged := changed none
    rw [counts.absent] at unchanged
    exact unchanged
  | some stored =>
    show readFields fields [] blank (before ++ (name, stored) :: after) =
      (Counter.read stored).map _
    cases readCounter : Counter.read stored with
    | ok counter =>
      rw [counts.owns.readFields_middle counts.taken avoids readCounter]
      exact changed counter
    | error fault =>
      rw [readFields_append] at reads
      obtain ⟨middle, isMiddle, _⟩ := bind_eq_ok_iff.mp reads
      exact counts.owns.readFields_middle_of_error counts.taken (Fields.avoids_append.mp avoids).1
        isMiddle readCounter

/-- Entries that are read with a counter among them are read without it. -/
theorem exists_readFields (counts : OwnsCounter fields name slot blank)
    (avoids : (before ++ after).Avoids [name]) {held : Option Json} {value : α}
    (reads : readFields fields [] blank (before.around after name held) = .ok value) :
    ∃ record, readFields fields [] blank (before ++ after) = .ok record := by
  cases held with
  | none => exact ⟨value, reads⟩
  | some stored =>
    change readFields fields [] blank (before ++ (name, stored) :: after) = _ at reads
    cases readCounter : Counter.read stored with
    | ok counter =>
      rw [counts.owns.readFields_middle counts.taken avoids readCounter,
        counts.readFields_set avoids] at reads
      cases without : readFields fields [] blank (before ++ after) with
      | ok record => exact ⟨record, rfl⟩
      | error fault =>
        rw [without] at reads
        cases reads
    | error fault =>
      have early := reads
      rw [readFields_append] at early
      obtain ⟨middle, isMiddle, _⟩ := bind_eq_ok_iff.mp early
      rw [counts.owns.readFields_middle_of_error counts.taken (Fields.avoids_append.mp avoids).1
        isMiddle readCounter] at reads
      cases reads

/-- **A record answers with the counter of a field.** -/
theorem answers (counts : OwnsCounter fields name slot blank)
    (avoids : (before ++ after).Avoids [name]) {held : Option Json}
    (isHere : ∀ value, readFields fields [] blank (before.around after name held) = .ok value →
      slot.here value) (given : Option Json) :
    Answers slot (Counter.readOptional given)
      (readFields fields [] blank (before.around after name held))
      (readFields fields [] blank (before.around after name given)) := by
  intro value reads
  obtain ⟨record, without⟩ := counts.exists_readFields avoids reads
  refine ⟨isHere value reads, ?_⟩
  rw [counts.readFields_around avoids without] at reads ⊢
  cases readHeld : Counter.readOptional held with
  | error fault =>
    rw [readHeld] at reads
    cases reads
  | ok counter =>
    rw [readHeld] at reads
    cases reads
    cases Counter.readOptional given with
    | error fault => rfl
    | ok other => exact congrArg Except.ok (counts.again record counter other).symm

end OwnsCounter

end Owned

end IvrFlow
