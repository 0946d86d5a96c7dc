import IvrFlow.Proofs.Record.Entries

/-!
What may stand in the entries of a stored record. A layout says it for each of its keys, and where a
layout describes the fields of a record, just the entries that are well typed for the layout can be
read (`exists_readFields_iff`).
-/

namespace IvrFlow

variable {α β : Type}

/-- What may stand in an entry. -/
inductive Shape where
  | text
  | textOrNull
  | flagOrNull
  | counter

/-- The values of a shape. -/
def Shape.Admits : Shape → Json → Prop
  | .text, stored => ∃ text, stored = .str text
  | .textOrNull, stored => stored = .null ∨ ∃ text, stored = .str text
  | .flagOrNull, stored => stored = .null ∨ ∃ flag, stored = .bool flag
  | .counter, stored => ∃ counter, Counter.read stored = .ok counter

/-- Entries hold what a layout allows under its keys, each of which stands there at most once. Under
other keys anything may stand. -/
structure WellTyped (layout : List (String × Shape)) (entries : Fields) : Prop where
  once : entries.Pairwise fun entry other => entry.1 = other.1 → layout.lookup entry.1 = none
  typed : ∀ entry ∈ entries, ∀ shape, layout.lookup entry.1 = some shape → shape.Admits entry.2

theorem wellTyped_cons_iff {layout : List (String × Shape)} {key : String} {stored : Json}
    {rest : Fields} :
    WellTyped layout ((key, stored) :: rest) ↔
      (∀ other ∈ rest, key = other.1 → layout.lookup key = none) ∧
        (∀ shape, layout.lookup key = some shape → shape.Admits stored) ∧
        WellTyped layout rest := by
  constructor
  · rintro ⟨once, typed⟩
    obtain ⟨first, others⟩ := List.pairwise_cons.mp once
    obtain ⟨firstTyped, othersTyped⟩ := List.forall_mem_cons.mp typed
    exact ⟨first, firstTyped, others, othersTyped⟩
  · rintro ⟨first, firstTyped, others, othersTyped⟩
    exact ⟨List.pairwise_cons.mpr ⟨first, others⟩,
      List.forall_mem_cons.mpr ⟨firstTyped, othersTyped⟩⟩

/-! ### Fields and their shapes -/

/-- A field takes one key, and the values of one shape under it. -/
structure Field.Takes (field : Field α) (slot : String × Shape) : Prop where
  name : field.name = slot.1
  aliases : field.aliases = []
  reads : ∀ stored record, (∃ next, field.read stored record = .ok next) ↔ slot.2.Admits stored

namespace Field

section

variable {name : String}

theorem Sets.takes {field : Field α} {read : Json → Except Fault β} {set : α → β → α}
    (sets : field.Sets read set) (named : field.name = name) (older : field.aliases = [])
    {shape : Shape}
    (reads : ∀ stored, (∃ value, read stored = .ok value) ↔ shape.Admits stored) :
    field.Takes (name, shape) where
  name := named
  aliases := older
  reads stored record := by
    rw [← reads, sets stored record]
    cases read stored with
    | error fault => simp [Except.map]
    | ok value => simp [Except.map]

theorem takes_text {get : α → String} {set : α → String → α} :
    (Field.of name [] .text get set).Takes (name, .text) :=
  sets_of.takes rfl rfl fun stored => by cases stored <;> simp [Codec.text, Shape.Admits]

theorem takes_textOrNull {get : α → Option String} {set : α → Option String → α} :
    (Field.orNull name [] .text get set).Takes (name, .textOrNull) :=
  sets_orNull.takes rfl rfl fun stored => by
    cases stored <;>
      simp [Codec.orNull, Codec.text, Shape.Admits]

theorem takes_flagOrNull {get : α → Option Bool} {set : α → Option Bool → α} :
    (Field.orNull name [] .flag get set).Takes (name, .flagOrNull) :=
  sets_orNull.takes rfl rfl fun stored => by
    cases stored <;>
      simp [Codec.orNull, Codec.flag, Shape.Admits]

theorem takes_counter {get : α → Option UInt32} {set : α → Option UInt32 → α} :
    (Field.counter name get set).Takes (name, .counter) :=
  sets_counter.takes rfl rfl fun _ => Iff.rfl

end

end Field

/-! ### Reading well-typed entries -/

section Reading

variable {fields : List (Field α)} {layout : List (String × Shape)}

/-- A key is one of a layout just when a field takes it. -/
theorem find?_of_takes (described : List.Forall₂ Field.Takes fields layout) (key : String) :
    fields.find? (·.accepts key) = none ∧ layout.lookup key = none ∨
      ∃ field shape, fields.find? (·.accepts key) = some field ∧ layout.lookup key = some shape ∧
        field.Takes (key, shape) := by
  induction described with
  | nil => exact Or.inl ⟨rfl, rfl⟩
  | @cons field slot fields layout takes _ ih =>
    have accepts : field.accepts key = (key == slot.1) := by
      rw [Field.accepts, takes.name, takes.aliases, List.contains_nil, Bool.or_false]
    rw [List.find?_cons, accepts, List.lookup_cons]
    cases own : key == slot.1 with
    | true =>
      obtain rfl : key = slot.1 := eq_of_beq own
      exact Or.inr ⟨field, slot.2, rfl, rfl, takes⟩
    | false => exact ih

/-- Entries can be read when they are well typed, and no key of the layout among them has been seen
before; by induction on the entries. -/
theorem exists_readFields_iff_of_seen (described : List.Forall₂ Field.Takes fields layout)
    (seen : List String) (record : α) (entries : Fields) :
    (∃ result, readFields fields seen record entries = .ok result) ↔
      WellTyped layout entries ∧
        ∀ entry ∈ entries, entry.1 ∈ seen → layout.lookup entry.1 = none := by
  induction entries generalizing seen record with
  | nil =>
    refine iff_of_true ⟨record, rfl⟩ ⟨⟨List.Pairwise.nil, ?_⟩, ?_⟩
    · exact List.forall_mem_nil _
    · exact List.forall_mem_nil _
  | cons entry rest ih =>
    obtain ⟨key, stored⟩ := entry
    rw [readFields, wellTyped_cons_iff, List.forall_mem_cons]
    obtain ⟨untaken, noKey⟩ | ⟨field, shape, found, isKey, takes⟩ := find?_of_takes described key
    · simp only [untaken, noKey, ih, implies_true, true_and, reduceCtorEq, false_implies]
    · simp only [found, isKey, takes.name, List.contains_iff_mem]
      by_cases isSeen : key ∈ seen
      · simp [isSeen]
      rw [if_neg isSeen]
      constructor
      · rintro ⟨result, reads⟩
        obtain ⟨next, readHere, readRest⟩ := bind_eq_ok_iff.mp reads
        obtain ⟨typed, fresh⟩ := (ih (key :: seen) next).mp ⟨result, readRest⟩
        refine ⟨⟨fun other isOther same => ?_, fun own isOwn => ?_, typed⟩, (absurd · isSeen),
          fun other isOther before => fresh other isOther (List.mem_cons_of_mem key before)⟩
        · rw [← isKey, same]
          exact fresh other isOther (same ▸ List.mem_cons_self)
        · cases isOwn
          exact (takes.reads stored record).mp ⟨next, readHere⟩
      · rintro ⟨⟨once, typed, restTyped⟩, _, fresh⟩
        obtain ⟨next, readHere⟩ := (takes.reads stored record).mpr (typed shape rfl)
        have restFresh : ∀ other ∈ rest, other.1 ∈ key :: seen → layout.lookup other.1 = none := by
          intro other isOther before
          rcases List.mem_cons.mp before with same | before
          · cases once other isOther same.symm
          · exact fresh other isOther before
        obtain ⟨result, readRest⟩ := (ih (key :: seen) next).mpr ⟨restTyped, restFresh⟩
        exact ⟨result, bind_eq_ok_iff.mpr ⟨next, readHere, readRest⟩⟩

/-- **Entries can be read exactly when they are well typed.** -/
theorem exists_readFields_iff (described : List.Forall₂ Field.Takes fields layout) (record : α)
    (entries : Fields) :
    (∃ result, readFields fields [] record entries = .ok result) ↔ WellTyped layout entries := by
  rw [exists_readFields_iff_of_seen described]
  exact and_iff_left fun _ _ before => absurd before List.not_mem_nil

end Reading

end IvrFlow
