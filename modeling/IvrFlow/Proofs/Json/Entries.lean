import IvrFlow.Json.Value
import Mathlib.Data.List.Induction
import Mathlib.Data.String.Basic

/-!
Entries of objects as collections. Sorted entries are in the order of their keys, as reading a
document and `Fields.insert` leave them. The statements say what an insertion does to the keys, to a
lookup, and to the entries under chosen keys.
-/

namespace IvrFlow.Fields

/-- Entries in the order of their keys, each key once. -/
def Sorted (fields : Fields) : Prop := fields.Pairwise (·.1 < ·.1)

/-- No entry has one of some keys. -/
def Avoids (keys : List String) (fields : Fields) : Prop := ∀ entry ∈ fields, entry.1 ∉ keys

section Insert

variable {key : String} {value : Json} {rest : Fields}

theorem insert_cons_of_lt {entry : String × Json} (before : key < entry.1) :
    Fields.insert key value (entry :: rest) = (key, value) :: entry :: rest := by
  obtain ⟨k, v⟩ := entry
  rw [insert, if_pos before]

theorem insert_cons_self (old : Json) :
    Fields.insert key value ((key, old) :: rest) = (key, value) :: rest := by
  rw [insert, if_neg (lt_irrefl key), if_pos rfl]

theorem insert_cons_of_gt {entry : String × Json} (after : entry.1 < key) :
    Fields.insert key value (entry :: rest) = entry :: Fields.insert key value rest := by
  obtain ⟨k, v⟩ := entry
  rw [insert, if_neg (lt_asymm after), if_neg (ne_of_gt after)]

end Insert

/-! ### Keys -/

/-- Every entry after an insertion is the new one or was there before. -/
theorem mem_insert {key : String} {value : Json} {fields : Fields} {entry : String × Json}
    (member : entry ∈ fields.insert key value) : entry = (key, value) ∨ entry ∈ fields := by
  induction fields with
  | nil => exact Or.inl (List.mem_singleton.mp member)
  | cons head rest ih =>
    obtain ⟨k, old⟩ := head
    rcases lt_trichotomy key k with before | rfl | after
    · rw [insert_cons_of_lt before] at member
      exact List.mem_cons.mp member
    · rw [insert_cons_self] at member
      exact (List.mem_cons.mp member).imp_right (List.mem_cons_of_mem _)
    · rw [insert_cons_of_gt after] at member
      rcases List.mem_cons.mp member with rfl | later
      · exact Or.inr List.mem_cons_self
      · exact (ih later).imp_right (List.mem_cons_of_mem _)

theorem sorted_insert {fields : Fields} (sorted : fields.Sorted) (key : String) (value : Json) :
    (fields.insert key value).Sorted := by
  induction fields with
  | nil => exact List.pairwise_singleton _ _
  | cons head rest ih =>
    obtain ⟨k, old⟩ := head
    obtain ⟨first, later⟩ := List.pairwise_cons.mp sorted
    rcases lt_trichotomy key k with before | rfl | after
    · rw [insert_cons_of_lt before]
      refine List.pairwise_cons.mpr ⟨fun entry member => ?_, sorted⟩
      rcases List.mem_cons.mp member with rfl | member
      · exact before
      · exact lt_trans before (first entry member)
    · rw [insert_cons_self]
      exact List.pairwise_cons.mpr ⟨first, later⟩
    · rw [insert_cons_of_gt after]
      refine List.pairwise_cons.mpr ⟨fun entry member => ?_, ih later⟩
      rcases mem_insert member with rfl | member
      · exact after
      · exact first entry member

/-- Inserting above all the keys puts the entry last. -/
theorem insert_of_forall_gt {key : String} {value : Json} {fields : Fields}
    (after : ∀ entry ∈ fields, entry.1 < key) :
    fields.insert key value = fields ++ [(key, value)] := by
  induction fields with
  | nil => rfl
  | cons entry rest ih =>
    obtain ⟨isBefore, restBefore⟩ := List.forall_mem_cons.mp after
    rw [insert_cons_of_gt isBefore, ih restBefore, List.cons_append]

theorem avoids_insert {keys : List String} {fields : Fields} {key : String} (value : Json)
    (avoids : fields.Avoids keys) (other : key ∉ keys) : (fields.insert key value).Avoids keys := by
  intro entry member
  rcases mem_insert member with rfl | member
  · exact other
  · exact avoids entry member

theorem lookup_eq_none_of_avoids {keys : List String} {fields : Fields} {key : String}
    (avoids : fields.Avoids keys) (isKey : key ∈ keys) : fields.lookup key = none := by
  rw [List.lookup_eq_none_iff]
  intro entry member
  have different : entry.1 ≠ key := fun same => avoids entry member (by rw [same]; exact isKey)
  exact bne_iff_ne.mpr different.symm

/-! ### Entries in any order -/

section OfList

/-- One by one, each entry is put among those before it. -/
theorem ofList_append_singleton (entries : List (String × Json)) (entry : String × Json) :
    ofList (entries ++ [entry]) = (ofList entries).insert entry.1 entry.2 := by
  rw [ofList, List.foldl_append]
  rfl

theorem sorted_ofList (entries : List (String × Json)) : (ofList entries).Sorted := by
  induction entries using List.reverseRecOn with
  | nil => exact List.Pairwise.nil
  | append_singleton entries entry ih =>
    rw [ofList_append_singleton]
    exact sorted_insert ih _ _

theorem mem_of_mem_ofList {entries : List (String × Json)} {entry : String × Json}
    (member : entry ∈ ofList entries) : entry ∈ entries := by
  induction entries using List.reverseRecOn with
  | nil => exact member
  | append_singleton entries last ih =>
    rw [ofList_append_singleton] at member
    rcases mem_insert member with rfl | before
    · exact List.mem_append_right _ (List.mem_singleton_self _)
    · exact List.mem_append_left _ (ih before)

/-- Sorted entries stay as they are. -/
theorem ofList_of_sorted {fields : Fields} (sorted : fields.Sorted) : ofList fields = fields := by
  induction fields using List.reverseRecOn with
  | nil => rfl
  | append_singleton fields last ih =>
    obtain ⟨sortedBefore, _, before⟩ := List.pairwise_append.mp sorted
    rw [ofList_append_singleton, ih sortedBefore]
    exact insert_of_forall_gt fun entry member =>
      before entry member last (List.mem_singleton_self _)

end OfList

/-! ### The entries under chosen keys -/

/-- The entries whose keys are chosen, in their order. -/
def under (chosen : String → Bool) (fields : Fields) : Fields :=
  fields.filter fun entry => chosen entry.1

section Under

variable {chosen : String → Bool}

theorem under_cons_of_chosen {entry : String × Json} (isChosen : chosen entry.1 = true)
    (rest : Fields) : under chosen (entry :: rest) = entry :: under chosen rest :=
  List.filter_cons_of_pos isChosen

theorem under_cons_of_not {entry : String × Json} (other : chosen entry.1 = false)
    (rest : Fields) : under chosen (entry :: rest) = under chosen rest :=
  List.filter_cons_of_neg (by simp [other])

/-- Inserting under another key leaves the entries under the chosen keys. -/
theorem under_insert_of_not {key : String} (value : Json) (other : chosen key = false)
    (fields : Fields) : (fields.insert key value).under chosen = fields.under chosen := by
  induction fields with
  | nil => exact under_cons_of_not other []
  | cons head rest ih =>
    obtain ⟨k, old⟩ := head
    rcases lt_trichotomy key k with before | rfl | after
    · rw [insert_cons_of_lt before, under_cons_of_not other]
    · rw [insert_cons_self, under_cons_of_not other, under_cons_of_not other]
    · rw [insert_cons_of_gt after]
      cases keep : chosen k with
      | true => rw [under_cons_of_chosen keep, under_cons_of_chosen keep, ih]
      | false => rw [under_cons_of_not keep, under_cons_of_not keep, ih]

/-- Inserting below all the keys puts the entry first. -/
theorem insert_of_forall_lt {key : String} {value : Json} {fields : Fields}
    (before : ∀ entry ∈ fields, key < entry.1) : fields.insert key value = (key, value) :: fields :=
  match fields with
  | [] => rfl
  | entry :: _ => insert_cons_of_lt (before entry List.mem_cons_self)

/-- Inserting under a chosen key inserts among the entries under the chosen keys. The order matters:
the place before the first greater key is the same place only in sorted entries. -/
theorem under_insert_of_chosen {key : String} (value : Json) (isChosen : chosen key = true)
    {fields : Fields} (sorted : fields.Sorted) :
    (fields.insert key value).under chosen = (fields.under chosen).insert key value := by
  induction fields with
  | nil => exact under_cons_of_chosen isChosen []
  | cons head rest ih =>
    obtain ⟨k, old⟩ := head
    obtain ⟨first, later⟩ := List.pairwise_cons.mp sorted
    rcases lt_trichotomy key k with before | rfl | after
    · rw [insert_cons_of_lt before, under_cons_of_chosen isChosen]
      refine (insert_of_forall_lt fun entry member => ?_).symm
      rcases List.mem_cons.mp (List.mem_of_mem_filter member) with rfl | member
      · exact before
      · exact lt_trans before (first entry member)
    · rw [insert_cons_self, under_cons_of_chosen isChosen, under_cons_of_chosen isChosen,
        insert_cons_self]
    · rw [insert_cons_of_gt after]
      cases keep : chosen k with
      | true =>
        rw [under_cons_of_chosen keep, under_cons_of_chosen keep, insert_cons_of_gt after, ih later]
      | false => rw [under_cons_of_not keep, under_cons_of_not keep, ih later]

theorem under_eq_nil_of_avoids {keys : List String} {fields : Fields} (avoids : fields.Avoids keys)
    (onlyKeys : ∀ key, chosen key = true → key ∈ keys) : fields.under chosen = [] := by
  rw [under, List.filter_eq_nil_iff]
  intro entry member isChosen
  exact avoids entry member (onlyKeys entry.1 isChosen)

end Under

end IvrFlow.Fields
