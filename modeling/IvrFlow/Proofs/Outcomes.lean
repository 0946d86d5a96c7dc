import Mathlib.Data.List.Forall2

/-!
Results of readers. A reader that succeeded has gone through parts that each have succeeded, and one
whose parts all succeed succeeds. A list that is not read fails where the first of its items does
(`FirstFails`). Two readers whose parts agree, unless the first refuses something, agree in the same
way (`AgreeUnless`); two readers of which a part of the second breaks differ as the parts do
(`BreaksWith`).
-/

namespace IvrFlow

variable {α β ε : Type}

@[simp] theorem ok_bind (value : α) (next : α → Except ε β) :
    (Except.ok value >>= next) = next value := rfl

@[simp] theorem error_bind (error : ε) (next : α → Except ε β) :
    (Except.error error >>= next) = .error error := rfl

theorem bind_eq_ok_iff {first : Except ε α} {next : α → Except ε β} {result : β} :
    (first >>= next) = .ok result ↔ ∃ value, first = .ok value ∧ next value = .ok result := by
  cases first with
  | error error =>
    constructor
    · intro failed
      cases failed
    · rintro ⟨value, failed, _⟩
      cases failed
  | ok value =>
    constructor
    · exact fun succeeds => ⟨value, rfl, succeeds⟩
    · rintro ⟨_, same, succeeds⟩
      cases same
      exact succeeds

/-- A reader fails where the first of its parts fails, or where the next does on what the first
gives. -/
theorem bind_eq_error_iff {first : Except ε α} {next : α → Except ε β} {error : ε} :
    (first >>= next) = .error error ↔
      first = .error error ∨ ∃ value, first = .ok value ∧ next value = .error error := by
  cases first with
  | error other =>
    constructor
    · intro fails
      cases fails
      exact Or.inl rfl
    · rintro (fails | ⟨value, succeeds, _⟩)
      · cases fails
        rfl
      · cases succeeds
  | ok value =>
    constructor
    · exact fun fails => Or.inr ⟨value, rfl, fails⟩
    · rintro (fails | ⟨_, same, fails⟩)
      · cases fails
      · cases same
        exact fails

theorem pure_eq_ok_iff {value result : α} :
    (pure value : Except ε α) = .ok result ↔ value = result :=
  Except.ok.injEq value result ▸ Iff.rfl

theorem toOption_eq_some_iff {outcome : Except ε α} {value : α} :
    outcome.toOption = some value ↔ outcome = .ok value := by
  cases outcome with
  | ok other => simp only [Except.toOption, Option.some.injEq, Except.ok.injEq]
  | error error => simp only [Except.toOption, reduceCtorEq]

/-- What readers give, errors left aside, follows from what their parts give. -/
theorem toOption_bind (first : Except ε α) (next : α → Except ε β) :
    (first >>= next).toOption = first.toOption.bind fun value => (next value).toOption := by
  cases first <;> rfl

/-- A value that is changed before it is used is used as changed. -/
theorem map_bind {γ : Type} (outcome : Except ε α) (change : α → β) (next : β → Except ε γ) :
    (outcome.map change >>= next) = outcome >>= fun value => next (change value) := by
  cases outcome <;> rfl

/-! ### Lists -/

/-- What stands at an index of a list stands between what is before and what is after it. -/
theorem exists_split_at {values : List α} {index : Nat} {value : α}
    (found : values[index]? = some value) :
    ∃ before after, values = before ++ value :: after ∧ index = before.length := by
  obtain ⟨inBounds, rfl⟩ := List.getElem?_eq_some_iff.mp found
  refine ⟨values.take index, values.drop (index + 1), ?_, ?_⟩
  · rw [← List.drop_eq_getElem_cons inBounds, List.take_append_drop]
  · rw [List.length_take_of_le (Nat.le_of_lt inBounds)]

theorem modify_middle (before after : List α) (value : α) (change : α → α) :
    (before ++ value :: after).modify before.length change = before ++ change value :: after := by
  induction before with
  | nil => rfl
  | cons first rest ih => rw [List.cons_append, List.length_cons, List.modify_succ_cons, ih]; rfl

/-- A list is read item by item. -/
theorem mapM_eq_ok_iff {read : α → Except ε β} {items : List α} {values : List β} :
    items.mapM read = .ok values ↔ List.Forall₂ (fun item value => read item = .ok value) items
      values := by
  induction items generalizing values with
  | nil =>
    rw [List.mapM_nil, pure_eq_ok_iff, List.forall₂_nil_left_iff]
    exact eq_comm
  | cons item rest ih =>
    simp only [List.mapM_cons, bind_eq_ok_iff, pure_eq_ok_iff, ih, List.forall₂_cons_left_iff]
    constructor
    · rintro ⟨first, readFirst, others, readOthers, rfl⟩
      exact ⟨first, others, readFirst, readOthers, rfl⟩
    · rintro ⟨first, others, readFirst, readOthers, rfl⟩
      exact ⟨first, readFirst, others, readOthers, rfl⟩

/-- In lists that are related item by item, each value is related to one of the items. -/
theorem exists_of_forall₂ {related : α → β → Prop} {items : List α} {values : List β}
    (each : List.Forall₂ related items values) : ∀ value ∈ values, ∃ item ∈ items,
      related item value := by
  induction each with
  | nil => exact List.forall_mem_nil _
  | @cons item value items values isRelated _ ih =>
    refine List.forall_mem_cons.mpr ⟨⟨item, List.mem_cons_self, isRelated⟩, ?_⟩
    intro other isOther
    obtain ⟨source, isSource, ofSource⟩ := ih other isOther
    exact ⟨source, List.mem_cons_of_mem _ isSource, ofSource⟩

/-- There are values for all items when there is one for each. -/
theorem exists_forall₂_iff {related : α → β → Prop} {items : List α} :
    (∃ values, List.Forall₂ related items values) ↔ ∀ item ∈ items, ∃ value, related item value := by
  induction items with
  | nil => exact iff_of_true ⟨[], .nil⟩ (List.forall_mem_nil _)
  | cons item rest ih =>
    rw [List.forall_mem_cons, ← ih]
    constructor
    · rintro ⟨_, each⟩
      obtain ⟨value, values, isRelated, others, rfl⟩ := List.forall₂_cons_left_iff.mp each
      exact ⟨⟨value, isRelated⟩, values, others⟩
    · rintro ⟨⟨value, isRelated⟩, values, each⟩
      exact ⟨value :: values, .cons isRelated each⟩

section Related

variable {related : α → β → Prop} {items : List α} {values : List β}

/-- In lists that are related item by item, an item is related to the value at its index. -/
theorem exists_getElem?_of_forall₂ (each : List.Forall₂ related items values) {index : Nat}
    {item : α} (found : items[index]? = some item) :
    ∃ value, values[index]? = some value ∧ related item value := by
  induction each generalizing index with
  | nil => cases found
  | cons isRelated _ ih =>
    cases index with
    | zero =>
      cases found
      exact ⟨_, rfl, isRelated⟩
    | succ index => exact ih found

/-- They stay so when at some index both are changed alike. -/
theorem forall₂_modify (each : List.Forall₂ related items values) {index : Nat} {change : α → α}
    {changeToo : β → β}
    (alike : ∀ item value, items[index]? = some item → related item value →
      related (change item) (changeToo value)) :
    List.Forall₂ related (items.modify index change) (values.modify index changeToo) := by
  induction each generalizing index with
  | nil =>
    rw [List.modify_nil, List.modify_nil]
    exact .nil
  | cons isRelated rest ih =>
    cases index with
    | zero => exact .cons (alike _ _ rfl isRelated) rest
    | succ index => exact .cons isRelated (ih alike)

end Related

/-- Every value that a list is read as comes from one of its items. -/
theorem exists_of_mapM_eq_ok {read : α → Except ε β} {items : List α} {values : List β}
    (succeeds : items.mapM read = .ok values) :
    ∀ value ∈ values, ∃ item ∈ items, read item = .ok value :=
  exists_of_forall₂ (mapM_eq_ok_iff.mp succeeds)

/-- Every item of a list that is read is read as one of the values. -/
theorem exists_value_of_mapM_eq_ok {read : α → Except ε β} {items : List α} {values : List β}
    (succeeds : items.mapM read = .ok values) :
    ∀ item ∈ items, ∃ value ∈ values, read item = .ok value :=
  exists_of_forall₂ (mapM_eq_ok_iff.mp succeeds).flip

/-- Items that are read alike, one by one, make lists that are read alike. -/
theorem mapM_eq_of_forall₂ {read : α → Except ε β} {items others : List α}
    (each : List.Forall₂ (fun item other => read item = read other) items others) :
    items.mapM read = others.mapM read := by
  induction each with
  | nil => rfl
  | cons first _ ih => rw [List.mapM_cons, List.mapM_cons, first, ih]

/-- Reading items that are each read without a fault. -/
theorem mapM_eq_ok_map {γ : Type} {read : α → Except ε β} {write : γ → α} {back : γ → β} :
    ∀ {values : List γ}, (∀ value ∈ values, read (write value) = .ok (back value)) →
      (values.map write).mapM read = .ok (values.map back)
  | [], _ => rfl
  | value :: values, each => by
    have rest := mapM_eq_ok_map fun other member => each other (List.mem_cons_of_mem _ member)
    rw [List.map_cons, List.mapM_cons, each value List.mem_cons_self, rest]
    rfl

/-- An item of a list is not read, for an error, and all items before it are. -/
def FirstFails (read : α → Except ε β) (items : List α) (error : ε) : Prop :=
  ∃ before item after, items = before ++ item :: after ∧
    (∀ other ∈ before, ∃ value, read other = .ok value) ∧ read item = .error error

/-- The error of a list is that of the first of its items that is not read. -/
theorem mapM_eq_error_iff {read : α → Except ε β} {items : List α} {error : ε} :
    items.mapM read = .error error ↔ FirstFails read items error := by
  induction items with
  | nil =>
    constructor
    · intro fails
      cases fails
    · rintro ⟨before, item, after, isEmpty, _⟩
      exact absurd isEmpty.symm (List.append_ne_nil_of_right_ne_nil before (List.cons_ne_nil _ _))
  | cons first rest ih =>
    rw [List.mapM_cons]
    cases readFirst : read first with
    | error failure =>
      constructor
      · intro fails
        cases fails
        exact ⟨[], first, rest, rfl, List.forall_mem_nil _, readFirst⟩
      · rintro ⟨before, item, after, split, readBefore, fails⟩
        cases before with
        | nil =>
          cases split
          cases readFirst.symm.trans fails
          rfl
        | cons other before =>
          cases split
          obtain ⟨value, succeeds⟩ := readBefore first List.mem_cons_self
          cases readFirst.symm.trans succeeds
    | ok value =>
      have later : (do
          let values ← rest.mapM read
          return value :: values) = Except.error error ↔ rest.mapM read = .error error := by
        cases rest.mapM read with
        | error failure => exact Iff.rfl
        | ok values => exact ⟨(nomatch ·), (nomatch ·)⟩
      refine later.trans (ih.trans ?_)
      constructor
      · rintro ⟨before, item, after, rfl, readBefore, fails⟩
        exact ⟨first :: before, item, after, rfl,
          List.forall_mem_cons.mpr ⟨⟨value, readFirst⟩, readBefore⟩, fails⟩
      · rintro ⟨before, item, after, split, readBefore, fails⟩
        cases before with
        | nil =>
          cases split
          cases readFirst.symm.trans fails
        | cons other before =>
          cases split
          exact ⟨before, item, after, rfl, (List.forall_mem_cons.mp readBefore).2, fails⟩

section Then

variable {γ δ : Type} {own : Except ε γ} {read : α → Except ε β} {items : List α}
  {finish : γ → List β → δ}

/-- What is read before a list is there when the list is, and all items of the list are. -/
theorem bind_mapM_eq_ok_iff {result : δ} :
    (own >>= fun value => items.mapM read >>= fun values => .ok (finish value values)) =
        .ok result ↔
      ∃ value values, own = .ok value ∧
        List.Forall₂ (fun item value => read item = .ok value) items values ∧
        result = finish value values := by
  rw [bind_eq_ok_iff]
  constructor
  · rintro ⟨value, isOwn, rest⟩
    obtain ⟨values, readItems, isResult⟩ := bind_eq_ok_iff.mp rest
    cases isResult
    exact ⟨value, values, isOwn, mapM_eq_ok_iff.mp readItems, rfl⟩
  · rintro ⟨value, values, isOwn, each, rfl⟩
    exact ⟨value, isOwn, bind_eq_ok_iff.mpr ⟨values, mapM_eq_ok_iff.mpr each, rfl⟩⟩

/-- What is read before a list fails first, and then the first of the items that are not read. -/
theorem bind_mapM_eq_error_iff {error : ε} :
    (own >>= fun value => items.mapM read >>= fun values => .ok (finish value values)) =
        .error error ↔
      own = .error error ∨ (∃ value, own = .ok value) ∧ FirstFails read items error := by
  rw [bind_eq_error_iff]
  refine or_congr_right ?_
  constructor
  · rintro ⟨value, isOwn, fails⟩
    rcases bind_eq_error_iff.mp fails with fails | ⟨_, _, fails⟩
    · exact ⟨⟨value, isOwn⟩, mapM_eq_error_iff.mp fails⟩
    · cases fails
  · rintro ⟨⟨value, isOwn⟩, fails⟩
    exact ⟨value, isOwn, bind_eq_error_iff.mpr (Or.inl (mapM_eq_error_iff.mpr fails))⟩

end Then

/-- A list whose items are read alike but for one is read as that one is. -/
theorem toOption_mapM_middle {read : α → Except ε β} {item other : α}
    (same : (read item).toOption = (read other).toOption) (before after : List α) :
    ((before ++ item :: after).mapM read).toOption =
      ((before ++ other :: after).mapM read).toOption := by
  simp only [List.mapM_append, List.mapM_cons, toOption_bind, same]

/-! ### Readers that refuse more -/

/-- The first outcome is the same as the second, unless it is an error of some sort. -/
def AgreeUnless (refused : ε → Prop) (first second : Except ε α) : Prop :=
  first = second ∨ ∃ error, first = .error error ∧ refused error

namespace AgreeUnless

variable {refused : ε → Prop}

theorem refl (outcome : Except ε α) : AgreeUnless refused outcome outcome := Or.inl rfl

/-- What the first gives, the second gives too. -/
theorem eq_ok {first second : Except ε α} (agree : AgreeUnless refused first second) {value : α}
    (succeeds : first = .ok value) : second = .ok value := by
  rcases agree with same | ⟨error, fails, _⟩
  · rw [← same, succeeds]
  · cases succeeds.symm.trans fails

/-- Where the second gives something, the first fails only with an error of the sort. -/
theorem refused_of_eq_error {first second : Except ε α} (agree : AgreeUnless refused first second)
    {value : α} {error : ε} (succeeds : second = .ok value) (fails : first = .error error) :
    refused error := by
  rcases agree with same | ⟨other, failsToo, isRefused⟩
  · cases fails.symm.trans (same.trans succeeds)
  · cases fails.symm.trans failsToo
    exact isRefused

theorem mono {other : ε → Prop} {first second : Except ε α}
    (agree : AgreeUnless refused first second) (weaker : ∀ error, refused error → other error) :
    AgreeUnless other first second :=
  agree.imp_right fun ⟨error, fails, isRefused⟩ => ⟨error, fails, weaker error isRefused⟩

/-- Readers agree when their first parts do, and then what comes after the same value. -/
theorem bind {first second : Except ε α} {next nextToo : α → Except ε β}
    (agree : AgreeUnless refused first second)
    (each : ∀ value, second = .ok value → AgreeUnless refused (next value) (nextToo value)) :
    AgreeUnless refused (first >>= next) (second >>= nextToo) := by
  rcases agree with rfl | ⟨error, rfl, isRefused⟩
  · cases first with
    | error error => exact Or.inl rfl
    | ok value => exact each value rfl
  · exact Or.inr ⟨error, rfl, isRefused⟩

/-- Lists are read alike when each of their items is. -/
theorem mapM {read readToo : α → Except ε β} {items : List α}
    (each : ∀ item ∈ items, AgreeUnless refused (read item) (readToo item)) :
    AgreeUnless refused (items.mapM read) (items.mapM readToo) := by
  induction items with
  | nil => exact .refl _
  | cons item rest ih =>
    obtain ⟨first, others⟩ := List.forall_mem_cons.mp each
    rw [List.mapM_cons, List.mapM_cons]
    exact first.bind fun _ _ => (ih others).bind fun _ _ => .refl _

end AgreeUnless

/-! ### Readers that break -/

/-- The second outcome is an error of its own, unless the first has failed before it comes
to that. -/
def BreaksWith (error : ε) (first second : Except ε α) : Prop :=
  second = .error error ∨ ∃ earlier, first = .error earlier ∧ second = .error earlier

namespace BreaksWith

variable {error : ε} {first second : Except ε α}

/-- Where the first gives something, the second breaks. -/
theorem of_eq_ok (breaks : BreaksWith error first second) {value : α}
    (succeeds : first = .ok value) :
    second = .error error := by
  rcases breaks with broken | ⟨earlier, fails, _⟩
  · exact broken
  · cases succeeds.symm.trans fails

/-- What comes after a part that breaks is not come to. -/
theorem bind (breaks : BreaksWith error first second) (next nextToo : α → Except ε β) :
    BreaksWith error (first >>= next) (second >>= nextToo) := by
  rcases breaks with rfl | ⟨earlier, rfl, rfl⟩
  · exact Or.inl rfl
  · exact Or.inr ⟨earlier, rfl, rfl⟩

/-- What comes before a part that breaks is the same. -/
theorem bind_of_next {next nextToo : α → Except ε β}
    (each : ∀ value, BreaksWith error (next value) (nextToo value)) (outcome : Except ε α) :
    BreaksWith error (outcome >>= next) (outcome >>= nextToo) := by
  cases outcome with
  | error earlier => exact Or.inr ⟨earlier, rfl, rfl⟩
  | ok value => exact each value

theorem mapM_middle {read : α → Except ε β} {item other : α}
    (breaks : BreaksWith error (read item) (read other)) (before after : List α) :
    BreaksWith error ((before ++ item :: after).mapM read)
      ((before ++ other :: after).mapM read) := by
  simp only [List.mapM_append, List.mapM_cons]
  refine bind_of_next (fun values => ?_) _
  exact (breaks.bind _ _).bind _ _

end BreaksWith

end IvrFlow
