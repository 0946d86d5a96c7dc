import IvrFlow.Json.Number

/-!
JSON values. The entries of an object are listed in the order of their keys; reading a document and
`Fields.insert` keep it.
-/

namespace IvrFlow

/-- A JSON value. -/
inductive Json where
  | null
  | bool (value : Bool)
  | num (value : Number)
  | str (text : String)
  | arr (items : List Json)
  | obj (fields : List (String × Json))

/-- The entries of an object. -/
abbrev Fields := List (String × Json)

namespace Fields

/-- Puts a value under a key, in the place of the value there or else before the first greater
key. -/
def insert (key : String) (value : Json) : Fields → Fields
  | [] => [(key, value)]
  | (k, v) :: rest =>
    if key < k then (key, value) :: (k, v) :: rest
    else if key = k then (key, value) :: rest
    else (k, v) :: insert key value rest

/-- Entries in the order of their keys; of several with one key the last stays. -/
def ofList (entries : List (String × Json)) : Fields :=
  entries.foldl (fun fields entry => fields.insert entry.1 entry.2) []

@[simp] theorem lookup_insert_self (key : String) (value : Json) (fields : Fields) :
    (fields.insert key value).lookup key = some value := by
  induction fields with
  | nil => simp [insert]
  | cons entry rest ih =>
    obtain ⟨k, v⟩ := entry
    unfold insert
    split
    · simp
    · split
      · simp
      · rename_i hne
        simp [List.lookup_cons, beq_eq_false_iff_ne.mpr hne, ih]

@[simp] theorem lookup_insert_of_ne {key other : String} (value : Json) (fields : Fields)
    (h : other ≠ key) : (fields.insert key value).lookup other = fields.lookup other := by
  induction fields with
  | nil => simp [insert, List.lookup_cons, beq_eq_false_iff_ne.mpr h]
  | cons entry rest ih =>
    obtain ⟨k, v⟩ := entry
    unfold insert
    split
    · simp [List.lookup_cons, beq_eq_false_iff_ne.mpr h]
    · split
      · rename_i heq
        subst heq
        simp [List.lookup_cons, beq_eq_false_iff_ne.mpr h]
      · by_cases hk : other = k
        · simp [hk]
        · simp [List.lookup_cons, beq_eq_false_iff_ne.mpr hk, ih]

end Fields

namespace Json

/-- The value under a key of an object; nothing else has keys. -/
def get? (key : String) : Json → Option Json
  | .obj fields => fields.lookup key
  | _ => none

/-- The text of a JSON string. -/
def text? : Json → Option String
  | .str text => some text
  | _ => none

/-- The items of a JSON array. -/
def items? : Json → Option (List Json)
  | .arr items => some items
  | _ => none

/-- Whether a value is an object. -/
def isObject : Json → Bool
  | .obj _ => true
  | _ => false

theorem isObject_iff {value : Json} : value.isObject = true ↔ ∃ entries, value = .obj entries := by
  cases value <;> simp [isObject]

/-! ### Equality -/

mutual

/-- Whether two values are equal. -/
def same : Json → Json → Bool
  | .null, .null => true
  | .bool a, .bool b => a = b
  | .num a, .num b => a = b
  | .str a, .str b => a = b
  | .arr a, .arr b => sameItems a b
  | .obj a, .obj b => sameFields a b
  | _, _ => false

/-- Whether two lists of values are equal. -/
def sameItems : List Json → List Json → Bool
  | [], [] => true
  | a :: as, b :: bs => same a b && sameItems as bs
  | _, _ => false

/-- Whether two lists of entries are equal. -/
def sameFields : List (String × Json) → List (String × Json) → Bool
  | [], [] => true
  | (k, a) :: as, (l, b) :: bs => k = l && same a b && sameFields as bs
  | _, _ => false

end

mutual

theorem same_iff : ∀ a b : Json, same a b = true ↔ a = b
  | .null, b => by cases b <;> simp [same]
  | .bool _, b => by cases b <;> simp [same]
  | .num _, b => by cases b <;> simp [same]
  | .str _, b => by cases b <;> simp [same]
  | .arr items, b => by
    cases b with
    | arr others => simp [same, sameItems_iff items others]
    | _ => simp [same]
  | .obj fields, b => by
    cases b with
    | obj others => simp [same, sameFields_iff fields others]
    | _ => simp [same]

theorem sameItems_iff : ∀ as bs : List Json, sameItems as bs = true ↔ as = bs
  | [], bs => by cases bs <;> simp [sameItems]
  | a :: as, [] => by simp [sameItems]
  | a :: as, b :: bs => by simp [sameItems, same_iff a b, sameItems_iff as bs]

theorem sameFields_iff : ∀ as bs : List (String × Json), sameFields as bs = true ↔ as = bs
  | [], bs => by cases bs <;> simp [sameFields]
  | (k, a) :: as, [] => by simp [sameFields]
  | (k, a) :: as, (l, b) :: bs => by
    simp [sameFields, same_iff a b, sameFields_iff as bs, and_assoc]

end

instance : DecidableEq Json := fun a b => decidable_of_iff _ (same_iff a b)

end Json

end IvrFlow
