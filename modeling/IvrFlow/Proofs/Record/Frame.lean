import IvrFlow.Proofs.Json.Parts
import IvrFlow.Proofs.Outcomes
import IvrFlow.Record.Basic

/-!
What readers of records leave as it is. What holds of a blank record, and is kept by the reading of
each field, holds of the record that is read (`Record.read_preserves`); so what none of the fields
sets is as it was before (`Record.read_frames`).
-/

namespace IvrFlow

variable {α β γ : Type}

/-! ### What fields preserve -/

section Preserves

variable {given : Json → Prop} {holds : α → Prop}

/-- Reading the field from a value that is `given` keeps what `holds` of a record. -/
def Field.Preserves (given : Json → Prop) (holds : α → Prop) (field : Field α) : Prop :=
  ∀ stored record result, given stored → holds record → field.read stored record = .ok result →
    holds result

/-- What no value of a field can change is kept. -/
theorem Field.preserves_of {name : String} {aliases : List String} {codec : Codec β} {get : α → β}
    {set : α → β → α} (keeps : ∀ record value, holds record → holds (set record value)) :
    (Field.of name aliases codec get set).Preserves given holds := by
  intro stored record result _ before succeeds
  obtain ⟨value, _, isSet⟩ := bind_eq_ok_iff.mp succeeds
  rw [← pure_eq_ok_iff.mp isSet]
  exact keeps record value before

theorem Field.preserves_optional {name : String} {aliases : List String}
    {read : Json → Except Fault (Option β)} {write : β → Json} {get : α → Option β}
    {set : α → Option β → α} (keeps : ∀ record value, holds record → holds (set record value)) :
    (Field.optional name aliases read write get set).Preserves given holds := by
  intro stored record result _ before succeeds
  obtain ⟨value, _, isSet⟩ := bind_eq_ok_iff.mp succeeds
  rw [← pure_eq_ok_iff.mp isSet]
  exact keeps record value before

theorem readFields_preserves {fields : List (Field α)}
    (preserves : ∀ field ∈ fields, field.Preserves given holds) {seen : List String}
    {record result : α} {entries : Fields} (allGiven : ∀ entry ∈ entries, given entry.2)
    (before : holds record) (succeeds : readFields fields seen record entries = .ok result) :
    holds result := by
  induction entries generalizing seen record with
  | nil =>
    cases succeeds
    exact before
  | cons entry rest ih =>
    obtain ⟨key, stored⟩ := entry
    obtain ⟨isGiven, restGiven⟩ := List.forall_mem_cons.mp allGiven
    rw [readFields] at succeeds
    cases found : fields.find? (·.accepts key) with
    | none =>
      simp only [found] at succeeds
      exact ih restGiven before succeeds
    | some field =>
      simp only [found] at succeeds
      split at succeeds
      · cases succeeds
      · obtain ⟨next, readNext, readRest⟩ := bind_eq_ok_iff.mp succeeds
        have preserved := preserves field (List.mem_of_find?_eq_some found)
        exact ih restGiven (preserved stored record next isGiven before readNext) readRest

theorem readItems_preserves {fields : List (Field α)}
    (preserves : ∀ field ∈ fields, field.Preserves given holds) {record : α} {items : List Json}
    {result : α × List Json} (allGiven : ∀ item ∈ items, given item) (before : holds record)
    (succeeds : Record.readItems record fields items = .ok result) : holds result.1 := by
  induction fields generalizing record items with
  | nil =>
    cases succeeds
    exact before
  | cons field rest ih =>
    cases items with
    | nil =>
      cases succeeds
      exact before
    | cons item items =>
      obtain ⟨preserved, restPreserves⟩ := List.forall_mem_cons.mp preserves
      obtain ⟨isGiven, restGiven⟩ := List.forall_mem_cons.mp allGiven
      rw [Record.readItems] at succeeds
      obtain ⟨next, readNext, readRest⟩ := bind_eq_ok_iff.mp succeeds
      exact ih restPreserves restGiven (preserved item record next isGiven before readNext) readRest

/-- What holds of a blank record, and is kept by each field of a form, holds of a record that is
read. -/
theorem Record.read_preserves {form : Record α}
    (preserves : ∀ field ∈ form.fields, field.Preserves given holds)
    (preservesToo : ∀ field ∈ form.positions, field.Preserves given holds) {stored : Json}
    (allGiven : ∀ part ∈ stored.parts, given part) (before : holds form.blank) {record : α}
    (succeeds : form.codec.read stored = .ok record) : holds record := by
  cases stored with
  | obj entries =>
    obtain ⟨result, readEntries, complete⟩ := bind_eq_ok_iff.mp succeeds
    split at complete
    · cases complete
    · cases complete
      exact readFields_preserves preserves (Json.forall_parts_obj.mp allGiven) before readEntries
  | arr items =>
    have array : form.readArray items = .ok record := succeeds
    unfold readArray at array
    split at array
    · cases array
    · obtain ⟨⟨result, left⟩, readEach, complete⟩ := bind_eq_ok_iff.mp array
      simp only at complete
      split at complete
      · cases complete
        exact readItems_preserves preservesToo allGiven before readEach
      · cases complete
  | null | bool | num | str => cases succeeds

end Preserves

/-! ### What fields leave as it is -/

/-- Reading the field never changes what `view` shows of a record. -/
def Field.Frames (view : α → γ) (field : Field α) : Prop :=
  ∀ stored record result, field.read stored record = .ok result → view result = view record

theorem Field.frames_of {view : α → γ} {name : String} {aliases : List String} {codec : Codec β}
    {get : α → β} {set : α → β → α} (same : ∀ record value, view (set record value) = view record) :
    (Field.of name aliases codec get set).Frames view := by
  intro stored record result succeeds
  obtain ⟨value, _, isSet⟩ := bind_eq_ok_iff.mp succeeds
  rw [← pure_eq_ok_iff.mp isSet, same]

/-- Whatever holds of what a field never changes is kept. -/
theorem Field.Frames.preserves {view : α → γ} {field : Field α} (frames : field.Frames view)
    (given : Json → Prop) (holds : γ → Prop) :
    field.Preserves given fun record => holds (view record) := by
  intro stored record result _ before succeeds
  rw [frames stored record result succeeds]
  exact before

theorem readFields_frames {view : α → γ} {fields : List (Field α)}
    (frames : ∀ field ∈ fields, field.Frames view) {seen : List String} {record result : α}
    {entries : Fields} (succeeds : readFields fields seen record entries = .ok result) :
    view result = view record :=
  readFields_preserves
    (fun field isField => (frames field isField).preserves (fun _ => True) (· = view record))
    (fun _ _ => trivial) rfl succeeds

/-- What no field of a form changes is as in a blank record. -/
theorem Record.read_frames {view : α → γ} {form : Record α}
    (frames : ∀ field ∈ form.fields, field.Frames view)
    (framesToo : ∀ field ∈ form.positions, field.Frames view) {stored : Json} {record : α}
    (succeeds : form.codec.read stored = .ok record) : view record = view form.blank :=
  Record.read_preserves
    (fun field isField => (frames field isField).preserves (fun _ => True) (· = view form.blank))
    (fun field isField => (framesToo field isField).preserves (fun _ => True) (· = view form.blank))
    (fun _ _ => trivial) rfl succeeds

/-! ### What one field sets -/

section One

variable {fields : List (Field α)} {name : String} {seen : List String} {record result : α}
  {entries : Fields}

/-- What no other field changes stays as it is once the field with a name has had its entry. -/
theorem readFields_frames_of_seen {view : α → γ}
    (frames : ∀ field ∈ fields, field.name ≠ name → field.Frames view) (isSeen : name ∈ seen)
    (succeeds : readFields fields seen record entries = .ok result) :
    view result = view record := by
  induction entries generalizing seen record with
  | nil =>
    cases succeeds
    rfl
  | cons entry rest ih =>
    obtain ⟨key, stored⟩ := entry
    rw [readFields] at succeeds
    cases found : fields.find? (·.accepts key) with
    | none =>
      simp only [found] at succeeds
      exact ih isSeen succeeds
    | some field =>
      simp only [found, List.contains_iff_mem] at succeeds
      split at succeeds
      · cases succeeds
      · rename_i unseen
        obtain ⟨next, readNext, readRest⟩ := bind_eq_ok_iff.mp succeeds
        have other : field.name ≠ name := fun same => unseen (same ▸ isSeen)
        rw [ih (List.mem_cons_of_mem _ isSeen) readRest]
        exact frames field (List.mem_of_find?_eq_some found) other stored record next readNext

/-- A field that keeps what is stored, and has no older keys, has in the end what stands under its
key. -/
theorem view_of_readFields {view : α → Json}
    (taken : (fields.find? (·.accepts name)).map (·.name) = some name)
    (keeps : ∀ field ∈ fields, field.name = name → field.aliases = [] ∧
      ∀ stored record result, field.read stored record = .ok result → view result = stored)
    (frames : ∀ field ∈ fields, field.name ≠ name → field.Frames view) (unseen : name ∉ seen)
    {value : Json} (isThere : entries.lookup name = some value)
    (succeeds : readFields fields seen record entries = .ok result) : view result = value := by
  induction entries generalizing seen record with
  | nil => cases isThere
  | cons entry rest ih =>
    obtain ⟨key, stored⟩ := entry
    rw [readFields] at succeeds
    by_cases here : key = name
    · subst here
      rw [List.lookup_cons_self] at isThere
      cases isThere
      obtain ⟨field, found, named⟩ := Option.map_eq_some_iff.mp taken
      simp only [found, named, List.contains_iff_mem, unseen, if_false] at succeeds
      obtain ⟨next, readNext, readRest⟩ := bind_eq_ok_iff.mp succeeds
      rw [readFields_frames_of_seen frames List.mem_cons_self readRest]
      exact (keeps field (List.mem_of_find?_eq_some found) named).2 value record next readNext
    · rw [List.lookup_cons, beq_eq_false_iff_ne.mpr (Ne.symm here)] at isThere
      cases found : fields.find? (·.accepts key) with
      | none =>
        simp only [found] at succeeds
        exact ih unseen isThere succeeds
      | some field =>
        have other : field.name ≠ name := by
          intro named
          have accepts : field.accepts key = true := by simpa using List.find?_some found
          have noAliases := (keeps field (List.mem_of_find?_eq_some found) named).1
          rw [Field.accepts, named, noAliases, List.contains_nil, Bool.or_false,
            beq_iff_eq] at accepts
          exact here accepts
        simp only [found, List.contains_iff_mem] at succeeds
        split at succeeds
        · cases succeeds
        · obtain ⟨next, readNext, readRest⟩ := bind_eq_ok_iff.mp succeeds
          refine ih (fun isSeen => ?_) isThere readRest
          rcases List.mem_cons.mp isSeen with same | before
          · exact other same.symm
          · exact unseen before

end One

end IvrFlow
