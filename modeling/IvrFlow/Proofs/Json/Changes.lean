import IvrFlow.Proofs.Json.Entries

/-!
Changes in stored values: a value is changed under a key of an object or as an item of an array,
null is put where an object has nothing, and an entry is moved to another key. What stands under the
other keys of the object stays as it is.
-/

namespace IvrFlow

/-! ### An entry among others -/

namespace Fields

section Middle

variable {key other : String} {value : Json} {before after : Fields}

@[simp] theorem lookup_middle (absent : before.lookup key = none) :
    (before ++ (key, value) :: after).lookup key = some value := by
  rw [List.lookup_append, absent, List.lookup_cons_self, Option.none_or]

/-- The other entries are found as they are without the entry. -/
@[simp] theorem lookup_middle_of_ne (different : other ≠ key) :
    (before ++ (key, value) :: after).lookup other = (before ++ after).lookup other := by
  rw [List.lookup_append, List.lookup_append, List.lookup_cons, beq_eq_false_iff_ne.mpr different]

/-- They are found as they are when the entry is changed. -/
theorem lookup_changed {next : Json} (different : other ≠ key) :
    (before ++ (key, value) :: after).lookup other =
      (before ++ (key, next) :: after).lookup other := by
  rw [lookup_middle_of_ne different, lookup_middle_of_ne different]

/-- So they are when the entry is moved to another key. -/
theorem lookup_renamed {newer : String} (notOlder : other ≠ key) (notNewer : other ≠ newer) :
    (before ++ (key, value) :: after).lookup other =
      (Fields.insert newer value (before ++ after)).lookup other := by
  rw [lookup_middle_of_ne notOlder, lookup_insert_of_ne value _ notNewer]

/-- Whether there is an entry under a key does not depend on what an entry holds. -/
theorem isNone_lookup_changed (next : Json) :
    ((before ++ (key, value) :: after).lookup other).isNone =
      ((before ++ (key, next) :: after).lookup other).isNone := by
  rw [List.lookup_append, List.lookup_append, List.lookup_cons, List.lookup_cons]
  cases before.lookup other with
  | some found => rfl
  | none => cases other == key <;> rfl

theorem avoids_append {keys : List String} :
    Avoids keys (before ++ after) ↔ before.Avoids keys ∧ after.Avoids keys :=
  List.forall_mem_append

theorem Avoids.mono {keys fewer : List String} {fields : Fields} (avoids : fields.Avoids keys)
    (sub : fewer ⊆ keys) : fields.Avoids fewer :=
  fun entry member isKey => avoids entry member (sub isKey)

end Middle

/-- An entry under a new key is put between two parts of the entries that are there. -/
theorem exists_insert_eq {key : String} {fields : Fields} (avoids : fields.Avoids [key])
    (value : Json) : ∃ before after, fields = before ++ after ∧
      fields.insert key value = before ++ (key, value) :: after := by
  induction fields with
  | nil => exact ⟨[], [], rfl, rfl⟩
  | cons head rest ih =>
    obtain ⟨isOther, restAvoids⟩ := List.forall_mem_cons.mp avoids
    rcases lt_trichotomy key head.1 with before | same | after
    · exact ⟨[], head :: rest, rfl, insert_cons_of_lt before⟩
    · exact absurd (List.mem_singleton.mpr same.symm) isOther
    · obtain ⟨first, later, rfl, inserted⟩ := ih restAvoids
      refine ⟨head :: first, later, rfl, ?_⟩
      rw [insert_cons_of_gt after, inserted]
      rfl

end Fields

/-! ### Changes -/

namespace Json

/-- An object in which the value under a key is changed. -/
inductive Under (key : String) (change : Json → Json → Prop) : Json → Json → Prop where
  | intro {before after : Fields} {value other : Json} :
      before.lookup key = none → change value other →
      Under key change (.obj (before ++ (key, value) :: after))
        (.obj (before ++ (key, other) :: after))

/-- An array in which an item is changed. -/
inductive Item (change : Json → Json → Prop) : Json → Json → Prop where
  | intro {before after : List Json} {item other : Json} : change item other →
      Item change (.arr (before ++ item :: after)) (.arr (before ++ other :: after))

/-- An object that has nothing under a key, nor under older ones, and the same with null under the
key. -/
inductive NullPut (key : String) (aliases : List String) : Json → Json → Prop where
  | intro {entries : Fields} : entries.Avoids (key :: aliases) →
      NullPut key aliases (.obj entries) (.obj (entries.insert key .null))

/-- An object in which the entry under one key stands under another one, which it has not had. -/
inductive Renamed (older newer : String) : Json → Json → Prop where
  | intro {before after : Fields} {value : Json} : (before ++ after).Avoids [newer, older] →
      Renamed older newer (.obj (before ++ (older, value) :: after))
        (.obj (Fields.insert newer value (before ++ after)))

end Json

end IvrFlow
