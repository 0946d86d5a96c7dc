import IvrFlow.Json.Value

/-!
Values within values. The parts of a value are those directly inside it, and induction over parts is
induction over values (`Json.induction`). The depth of a value is the greatest number of containers
around each other in it, and what holds throughout a value holds of it and of all within it.
-/

namespace IvrFlow.Json

/-- The values directly inside a value. -/
def parts : Json → List Json
  | .arr items => items
  | .obj fields => fields.map Prod.snd
  | _ => []

theorem forall_parts_obj {property : Json → Prop} {fields : Fields} :
    (∀ part ∈ (obj fields).parts, property part) ↔ ∀ entry ∈ fields, property entry.2 :=
  List.forall_mem_map

theorem mem_parts_of_get? {stored part : Json} {key : String}
    (found : stored.get? key = some part) : part ∈ stored.parts := by
  cases stored with
  | obj entries =>
    obtain ⟨before, after, isEntries, _⟩ := List.lookup_eq_some_iff.mp found
    have isEntry : (key, part) ∈ entries := by
      rw [isEntries]
      exact List.mem_append_right _ List.mem_cons_self
    exact List.mem_map_of_mem (f := Prod.snd) isEntry
  | null | bool | num | str | arr => cases found

theorem sizeOf_lt_of_mem_parts {value part : Json} (isPart : part ∈ value.parts) :
    sizeOf part < sizeOf value := by
  cases value with
  | arr items =>
    have smaller := List.sizeOf_lt_of_mem (show part ∈ items from isPart)
    simp only [arr.sizeOf_spec]
    omega
  | obj fields =>
    obtain ⟨⟨key, value⟩, isEntry, rfl⟩ := List.mem_map.mp isPart
    have smaller := List.sizeOf_lt_of_mem isEntry
    simp only [obj.sizeOf_spec, Prod.mk.sizeOf_spec] at smaller ⊢
    omega
  | null | bool | num | str => cases isPart

/-- Induction over values: each comes after its parts. -/
@[elab_as_elim]
theorem induction {motive : Json → Prop}
    (each : ∀ value, (∀ part ∈ value.parts, motive part) → motive value) (value : Json) :
    motive value :=
  each value fun part isPart =>
    have := sizeOf_lt_of_mem_parts isPart
    induction each part
termination_by sizeOf value

/-! ### Depth -/

mutual

/-- The greatest number of containers around each other in a value, itself included. -/
def depth : Json → Nat
  | .arr items => depthOfItems items + 1
  | .obj fields => depthOfFields fields + 1
  | _ => 0

/-- The greatest depth of items. -/
def depthOfItems : List Json → Nat
  | [] => 0
  | item :: rest => max (depth item) (depthOfItems rest)

/-- The greatest depth of the values of entries. -/
def depthOfFields : List (String × Json) → Nat
  | [] => 0
  | (_, value) :: rest => max (depth value) (depthOfFields rest)

end

@[simp] theorem depthOfItems_eq_foldr :
    ∀ items : List Json, depthOfItems items = (items.map depth).foldr max 0
  | [] => rfl
  | item :: rest => by
    rw [depthOfItems, depthOfItems_eq_foldr rest]
    rfl

@[simp] theorem depthOfFields_eq_depthOfItems : ∀ fields : Fields,
    depthOfFields fields = depthOfItems (fields.map Prod.snd)
  | [] => rfl
  | (key, value) :: rest => by
    rw [depthOfFields, depthOfFields_eq_depthOfItems rest]
    rfl

theorem depth_le_depthOfItems {items : List Json} {item : Json} (isItem : item ∈ items) :
    item.depth ≤ depthOfItems items := by
  induction items with
  | nil => cases isItem
  | cons first rest ih =>
    rcases List.mem_cons.mp isItem with rfl | later
    · exact Nat.le_max_left _ _
    · exact Nat.le_trans (ih later) (Nat.le_max_right _ _)

/-- The parts of a value are less deep than the value. -/
theorem depth_lt_of_mem_parts {value part : Json} (isPart : part ∈ value.parts) :
    part.depth < value.depth := by
  cases value with
  | arr items => exact Nat.lt_succ_of_le (depth_le_depthOfItems isPart)
  | obj fields =>
    rw [depth, depthOfFields_eq_depthOfItems]
    exact Nat.lt_succ_of_le (depth_le_depthOfItems isPart)
  | null | bool | num | str => cases isPart

/-! ### Properties of everything in a value -/

/-- A property of a value and of every value within it. -/
inductive Throughout (property : Json → Prop) : Json → Prop where
  | intro {value : Json} : property value → (∀ part ∈ value.parts, Throughout property part) →
      Throughout property value

namespace Throughout

variable {property : Json → Prop} {value : Json}

theorem here (throughout : value.Throughout property) : property value := by
  cases throughout with
  | intro here parts => exact here

theorem parts (throughout : value.Throughout property) :
    ∀ part ∈ value.parts, part.Throughout property := by
  cases throughout with
  | intro here parts => exact parts

end Throughout

end IvrFlow.Json
