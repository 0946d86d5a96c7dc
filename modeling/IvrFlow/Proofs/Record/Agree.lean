import IvrFlow.Proofs.Record.Entries
import Mathlib.Data.List.Find

/-!
Entries that agree on some keys. A record is read from the entries under the keys of its fields
alone, so objects that agree on those keys are read alike, whatever else they hold
(`Record.read_of_agree`). And a record in which the value of a field is changed is read alike if the
value is (`Record.read_of_changed`).
-/

namespace IvrFlow

variable {α β : Type}

/-! ### Agreement -/

/-- The same entries under some keys, in the same order; under other keys there may be any. -/
def Fields.Agree (keys : List String) (entries others : Fields) : Prop :=
  entries.under keys.contains = others.under keys.contains

instance (keys : List String) (entries others : Fields) : Decidable (entries.Agree keys others) :=
  inferInstanceAs (Decidable (_ = _))

namespace Fields

section

variable {keys : List String} {entries others : Fields}

theorem lookup_under {chosen : String → Bool} {key : String} (isChosen : chosen key = true)
    (entries : Fields) : (entries.under chosen).lookup key = entries.lookup key := by
  induction entries with
  | nil => rfl
  | cons entry rest ih =>
    by_cases same : entry.1 = key
    · subst same
      rw [under_cons_of_chosen isChosen, List.lookup_cons_self, List.lookup_cons_self]
    · have other : (key == entry.1) = false := beq_eq_false_iff_ne.mpr (Ne.symm same)
      rw [List.lookup_cons, other]
      cases keep : chosen entry.1 with
      | true => rw [under_cons_of_chosen keep, List.lookup_cons, other, ih]
      | false => rw [under_cons_of_not keep, ih]

theorem Agree.lookup (agree : entries.Agree keys others) {key : String} (isKey : key ∈ keys) :
    entries.lookup key = others.lookup key := by
  have chosen : keys.contains key = true := List.contains_iff_mem.mpr isKey
  rw [← lookup_under chosen, agree, lookup_under chosen]

theorem Agree.under {chosen : String → Bool} (agree : entries.Agree keys others)
    (onlyKeys : ∀ key, chosen key = true → key ∈ keys) :
    entries.under chosen = others.under chosen := by
  have narrow (entries : Fields) : (entries.under keys.contains).under chosen =
      entries.under chosen := by
    rw [Fields.under, Fields.under, List.filter_filter, Fields.under]
    refine List.filter_congr fun entry _ => ?_
    cases isChosen : chosen entry.1 with
    | true => rw [List.contains_iff_mem.mpr (onlyKeys _ isChosen), Bool.and_self]
    | false => rw [Bool.false_and]
  rw [← narrow, agree, narrow]

end

end Fields

/-- Objects whose entries agree on some keys. -/
inductive Json.Agree (keys : List String) : Json → Json → Prop where
  | obj {entries others : Fields} : entries.Agree keys others → Agree keys (.obj entries) (.obj others)

/-! ### Reading -/

/-- The keys of some fields, older ones included, are among some keys. -/
def Covers (keys : List String) (fields : List (Field α)) : Prop :=
  ∀ field ∈ fields, ∀ key ∈ field.name :: field.aliases, key ∈ keys

instance (keys : List String) (fields : List (Field α)) : Decidable (Covers keys fields) :=
  inferInstanceAs (Decidable (∀ field ∈ fields, ∀ key ∈ field.name :: field.aliases, key ∈ keys))

section Reading

variable {keys : List String} {fields : List (Field α)} {entries others : Fields}

theorem Covers.mem_of_known (covers : Covers keys fields) {key : String}
    (isKnown : known fields key = true) : key ∈ keys := by
  obtain ⟨field, isField, accepts⟩ := List.any_eq_true.mp isKnown
  rw [Field.accepts, Bool.or_eq_true, beq_iff_eq, List.contains_iff_mem] at accepts
  exact covers field isField key (List.mem_cons.mpr accepts)

theorem readFields_of_agree (covers : Covers keys fields) (agree : entries.Agree keys others)
    (seen : List String) (record : α) :
    readFields fields seen record entries = readFields fields seen record others := by
  rw [← readFields_under, agree.under fun _ => covers.mem_of_known, readFields_under]

end Reading

namespace Record

/-- All keys that a record is read by, those it requires included, are among some keys. -/
def CoveredBy (form : Record α) (keys : List String) : Prop :=
  Covers keys form.fields ∧ ∀ name ∈ form.required, name ∈ keys

instance (form : Record α) (keys : List String) : Decidable (form.CoveredBy keys) :=
  inferInstanceAs (Decidable (_ ∧ _))

variable {form : Record α} {keys : List String} {stored other : Json}

/-- **Objects that agree on the keys of a record are read alike.** -/
theorem read_of_agree (covered : form.CoveredBy keys) (agree : Json.Agree keys stored other) :
    form.codec.read stored = form.codec.read other := by
  obtain ⟨covers, required⟩ := covered
  obtain @⟨entries, others, agree⟩ := agree
  have present : (form.required.find? fun name => (entries.lookup name).isNone) =
      form.required.find? fun name => (others.lookup name).isNone :=
    List.find?_congr fun name isRequired => by rw [agree.lookup (required name isRequired)]
  show form.readObject entries = form.readObject others
  rw [readObject, readObject, readFields_of_agree covers agree, present]

theorem orNull_of_agree (covered : form.CoveredBy keys) (agree : Json.Agree keys stored other) :
    form.codec.orNull stored = form.codec.orNull other := by
  have read := read_of_agree covered agree
  obtain ⟨_⟩ := agree
  rw [Codec.orNull, Codec.orNull, read]
  · exact Json.noConfusion
  · exact Json.noConfusion

/-- **A value of a field that is read alike leaves the record alike.** -/
theorem read_of_changed {name : String} {aliases : List String} {read : Json → Except Fault β}
    {set : α → β → α} {change : Json → Json → Prop}
    (owns : Owns form.fields name aliases read set)
    (ownsToo : Owns form.positions name aliases read set)
    (same : ∀ {value other}, change value other → read value = read other)
    (changed : form.Changed name change stored other) :
    form.codec.read stored = form.codec.read other := by
  cases changed with
  | @entry before after key value other taken isChange =>
    show form.readObject _ = form.readObject _
    rw [readObject, readObject, readFields_congr_middle (owns.read_congr taken (same isChange))]
    simp only [Fields.isNone_lookup_changed other]
  | @item before after value other isNext isChange =>
    obtain ⟨earlier, field, later, split, length, named⟩ := exists_field_at isNext
    have sets : field.Sets read set := (ownsToo.own field (by simp [split]) named).2
    show form.readArray _ = form.readArray _
    rw [readArray, readArray, split, readItems_append length, readItems_append length]
    simp only [readItems, sets value, sets other, same isChange, List.length_append,
      List.length_cons]

end Record

/-- Items that are read alike make lists that are read alike. -/
theorem Codec.list_of_item {item : Codec α} {change : Json → Json → Prop}
    (same : ∀ {value other}, change value other → item.read value = item.read other)
    {stored other : Json} (changed : Json.Item change stored other) :
    (Codec.list item).read stored = (Codec.list item).read other := by
  obtain @⟨before, after, value, next, isChange⟩ := changed
  show (before ++ value :: after).mapM item.read = (before ++ next :: after).mapM item.read
  simp only [List.mapM_append, List.mapM_cons, same isChange]

theorem Codec.nullAs_list_of_item {item : Codec α} {change : Json → Json → Prop}
    (same : ∀ {value other}, change value other → item.read value = item.read other)
    {stored other : Json} (changed : Json.Item change stored other) (values : List α) :
    ((Codec.list item).nullAs values).read stored = ((Codec.list item).nullAs values).read other := by
  have read := Codec.list_of_item same changed
  obtain ⟨_⟩ := changed
  exact read

end IvrFlow
