import IvrFlow.Proofs.Path.Legality
import IvrFlow.Proofs.Record.Slots

/-!
Positions of stored hops. A hop to an item of an array needs its position, so where the hop is
committed there is one more error: that there is no position (`Path.answers_load`).
-/

namespace IvrFlow

open IvrFlow.Field (sets_of sets_orNull sets_counter)

/-! ### Hops -/

namespace Hop

/-- The position of a hop that goes to an item. -/
def positionSlot : Slot Hop where
  here hop := hop.kind = .index
  get := position
  set counter hop := { hop with position := counter }
  get_set _ _ := rfl

/-- The same, and the notation that the position gives. -/
def shownSlot : Slot Hop where
  here hop := hop.kind = .index
  get := position
  set counter hop :=
    { hop with
      position := counter
      rendered := counter.map fun position => "[" ++ toString position.toNat ++ "]" }
  get_set _ _ := rfl

theorem ownsCounter_position : OwnsCounter form.fields "position" positionSlot template where
  owns := .other sets_of rfl rfl <| .self sets_counter rfl rfl <| .other sets_orNull rfl rfl .nil
  taken := rfl
  again _ _ _ := rfl
  absent := rfl

/-- Two stored hops that differ at most in their position. The second has the one that is given. -/
inductive PositionPut (given : Option Json) : Json → Json → Prop where
  | entry {stored other : Json} : Json.Put "position" given stored other →
      PositionPut given stored other
  | item {kind property : Json} {held : Option Json} :
      PositionPut given (.arr (kind :: property :: held.toList))
        (.arr (kind :: property :: given.toList))

/-- A stored hop that goes to an item. -/
def StoredIndex (stored : Json) : Prop :=
  ∃ hop, form.codec.read stored = .ok hop ∧ hop.kind = .index

theorem read_around {before after : Fields} (held : Option Json) :
    form.codec.read (.obj (before.around after "position" held)) =
      readFields form.fields [] template (before.around after "position" held) >>= fun hop =>
        if (before ++ after).lookup "kind" = none then .error (.missingField "kind")
        else .ok hop := by
  show form.readObject _ = _
  have kind : (before.around after "position" held).lookup "kind" =
      (before ++ after).lookup "kind" := Fields.lookup_around (by decide) held
  rw [Record.readObject]
  refine congrArg _ (funext fun hop => ?_)
  simp only [form, List.find?_cons, List.find?_nil, kind]
  cases (before ++ after).lookup "kind" <;> rfl

theorem read_items (kind property : Json) (held : Option Json) :
    form.codec.read (.arr (kind :: property :: held.toList)) = do
      let kind ← HopKind.codec.read kind
      let property ← Codec.text.orNull property
      let position ← Counter.readOptional held
      return { template with kind := kind, property := property, position := position } := by
  show form.readArray (kind :: property :: held.toList) = _
  cases held with
  | none =>
    simp only [Record.readArray, form, Record.readItems, kindField, propertyField, Field.of,
      Field.orNull, Field.optional, Option.toList]
    cases HopKind.codec.read kind with
    | error fault => rfl
    | ok kind => cases Codec.text.orNull property <;> rfl
  | some stored =>
    simp only [Record.readArray, form, Record.readItems, kindField, propertyField, positionField,
      Field.of, Field.orNull, Field.optional, Field.counter, Option.toList, Counter.readOptional]
    cases HopKind.codec.read kind with
    | error fault => rfl
    | ok kind =>
      cases Codec.text.orNull property with
      | error fault => rfl
      | ok property => cases Counter.read stored <;> rfl

theorem answers_read {given : Option Json} {stored other : Json} (isIndex : StoredIndex stored)
    (put : PositionPut given stored other) :
    Answers positionSlot (Counter.readOptional given) (form.codec.read stored)
      (form.codec.read other) := by
  obtain ⟨hop, read, isIndex⟩ := isIndex
  cases put with
  | entry put =>
    obtain @⟨before, after, held, avoids⟩ := put
    rw [read_around] at read ⊢
    rw [read_around]
    obtain ⟨first, reads, kept⟩ := bind_eq_ok_iff.mp read
    rcases lookup : (before ++ after).lookup "kind" with _ | kind
    · rw [if_pos lookup] at kept
      cases kept
    · rw [if_neg (by simp [lookup])] at kept
      cases kept
      refine (ownsCounter_position.answers avoids (fun value same => ?_) given).bind
        fun value result isHere isResult => ?_
      · cases reads.symm.trans same
        exact isIndex
      · simp only [reduceCtorEq, if_false] at isResult
        cases isResult
        exact ⟨isHere, fun counter => rfl⟩
  | @item kind property held =>
    rw [read_items] at read ⊢
    rw [read_items]
    obtain ⟨kind, readKind, read⟩ := bind_eq_ok_iff.mp read
    obtain ⟨property, readProperty, read⟩ := bind_eq_ok_iff.mp read
    obtain ⟨position, readHeld, read⟩ := bind_eq_ok_iff.mp read
    cases read
    rw [readKind, readProperty, readHeld]
    intro value same
    cases same
    refine ⟨isIndex, ?_⟩
    cases Counter.readOptional given <;> rfl

end Hop

/-! ### Paths -/

theorem Answers.locate {α : Type} {slot : Slot α} {given : Except Fault (Option UInt32)}
    {first second : Except Fault α} (answers : Answers slot given first second)
    (part : StoredPart) :
    Answers slot (part.locate given) (part.locate first) (part.locate second) := by
  intro value succeeds
  cases first with
  | error fault => cases succeeds
  | ok _ =>
    cases succeeds
    obtain ⟨isHere, rfl⟩ := answers value rfl
    refine ⟨isHere, ?_⟩
    cases given <;> rfl

/-- What is given for the position of a stored hop: a counter, and not an unset one. -/
def Path.givenPosition (given : Option Json) : Except StepError (Option UInt32) := do
  match ← StoredPart.path.locate (Counter.readOptional given) with
  | none => .error (.badPath .missingPosition)
  | some position => return some position

/-- Two stored paths that differ at most in the position of one hop, which goes to an item. -/
inductive Path.PositionPut (given : Option Json) (index : Nat) : Json → Json → Prop where
  | entry {before after : Fields} {key : String} {stored other : Json} :
      key ∈ ["operations", "accessOperations"] →
      (before ++ after).Avoids ["operations", "accessOperations"] →
      Json.ItemAt index (fun item next => Hop.StoredIndex item ∧ Hop.PositionPut given item next)
        stored other →
      PositionPut given index (.obj (before ++ (key, stored) :: after))
        (.obj (before ++ (key, other) :: after))
  | item {stored other : Json} :
      Json.ItemAt index (fun item next => Hop.StoredIndex item ∧ Hop.PositionPut given item next)
        stored other →
      PositionPut given index (.arr [stored]) (.arr [other])

namespace Path

/-- The position of a hop of a path. -/
def positionSlot (index : Nat) : Slot Path :=
  (Hop.shownSlot.item index).within (·.hops) ({ · with hops := · })

theorem read_singleton (stored : Json) :
    form.codec.read (.arr [stored]) = (Codec.list Hop.form.codec).read stored := by
  show form.readArray [stored] = _
  simp only [Record.readArray, form, Record.readItems, Field.of]
  cases (Codec.list Hop.form.codec).read stored <;> rfl

theorem answers_read {given : Option Json} {index : Nat} {stored other : Json}
    (put : PositionPut given index stored other) :
    Answers (Hop.positionSlot.item index) (Counter.readOptional given) (form.codec.read stored)
      (form.codec.read other) := by
  have items {stored other : Json} (changed : Json.ItemAt index
      (fun item next => Hop.StoredIndex item ∧ Hop.PositionPut given item next) stored other) :
      Answers (Hop.positionSlot.item index) (Counter.readOptional given)
        ((Codec.list Hop.form.codec).read stored) ((Codec.list Hop.form.codec).read other) := by
    obtain @⟨before, after, item, next, rfl, isIndex, put⟩ := changed
    exact (Hop.answers_read isIndex put).mapM_middle before after
  cases put with
  | entry isKey avoids changed =>
    rw [read_operations isKey avoids, read_operations isKey avoids]
    exact items changed
  | item changed =>
    rw [read_singleton, read_singleton]
    exact items changed

section Replaying

variable {before after : List Hop} {hop : Hop} {path : Path}

theorem legal_middle (isIndex : hop.kind = .index) (legal : Legal (before ++ hop :: after))
    (position : UInt32) : Legal (before ++ { hop with position := some position } :: after) := by
  obtain ⟨complete, unended⟩ := legal
  rw [List.forall_mem_append, List.forall_mem_cons] at complete
  have positioned : Hop.Complete { hop with position := some position } := by
    simp only [Hop.Complete, isIndex]
    exact ⟨position, rfl⟩
  refine ⟨?_, ?_⟩
  · rw [List.forall_mem_append, List.forall_mem_cons]
    exact ⟨complete.1, positioned, complete.2.2⟩
  · simpa only [List.pairwise_append, List.pairwise_cons, List.forall_mem_cons] using unended

/-- A hop with another position is kept with that position, and in the notation for it. -/
theorem keeps_set {kept : Hop} (isIndex : hop.kind = .index) (keeps : hop.Keeps kept)
    (position : UInt32) :
    Hop.Keeps { hop with position := some position } (Hop.shownSlot.set (some position) kept) := by
  obtain ⟨fixed, frozen⟩ := keeps.frozen
  have kind : kept.kind = .index := keeps.kind_eq.trans isIndex
  simp only [kind] at frozen
  obtain ⟨_, noProperty, _, _⟩ := frozen
  refine ⟨⟨fixed, ?_⟩, keeps.kind_eq, ?_, fun _ => rfl⟩
  · simp only [Hop.shownSlot, kind]
    exact ⟨position, noProperty, rfl, rfl⟩
  · intro isProperty
    cases isIndex.symm.trans isProperty

/-- A path is built alike with another position for one of its hops, but not without any. -/
theorem ofHops_middle (isIndex : hop.kind = .index)
    (built : ofHops (before ++ hop :: after) = .ok path) :
    (positionSlot before.length).here path ∧
      (∀ position, ofHops (before ++ { hop with position := some position } :: after) =
        .ok ((positionSlot before.length).set (some position) path)) ∧
      ofHops (before ++ { hop with position := none } :: after) = .error .missingPosition := by
  have legal : Legal (before ++ hop :: after) := exists_path_iff_legal.mp ⟨path, built⟩
  obtain ⟨keeps, _⟩ := keeps_of_ofHops built
  have stored : (before ++ hop :: after)[before.length]? = some hop := by simp
  refine ⟨?_, fun position => ?_, ?_⟩
  · obtain ⟨kept, found, keepsHop⟩ := exists_getElem?_of_forall₂ keeps stored
    exact ⟨kept, found, keepsHop.kind_eq.trans isIndex⟩
  · obtain ⟨others, keepsOthers, builtToo⟩ := (legal_middle isIndex legal position).ofHops
    -- A stored hop is kept in one way only, so just the one at the index is kept otherwise.
    have changed : List.Forall₂ Hop.Keeps
        ((before ++ hop :: after).modify before.length ({ · with position := some position }))
        (path.hops.modify before.length (Hop.shownSlot.set (some position))) :=
      forall₂_modify keeps fun item kept found keepsItem => by
        cases stored.symm.trans found
        exact keeps_set isIndex keepsItem position
    rw [modify_middle] at changed
    have unique : Relator.RightUnique Hop.Keeps := fun stored first second keepsFirst keepsSecond =>
      Except.ok.inj (keepsFirst.commit_eq.symm.trans keepsSecond.commit_eq)
    obtain rfl := List.right_unique_forall₂' unique keepsOthers changed
    have kinds : (before ++ { hop with position := some position } :: after).map (·.kind) =
        (before ++ hop :: after).map (·.kind) := by
      rw [List.map_append, List.map_append, List.map_cons, List.map_cons]
    have ends := (Hop.endsTerminal_of_keeps changed).trans
      ((Hop.endsTerminal_of_kinds kinds).trans (Hop.endsTerminal_of_keeps keeps).symm)
    have pending := congrArg Path.pending (eq_resting_of_ofHops built)
    rw [builtToo, resting, ends]
    exact congrArg (fun pending => Except.ok (Path.mk _ pending)) pending.symm
  · obtain ⟨complete, unended⟩ := legal
    obtain ⟨unendedBefore, _, between⟩ := List.pairwise_append.mp unended
    have goesOn : ∀ earlier ∈ before, earlier.kind ≠ .terminal :=
      fun earlier isEarlier => between earlier isEarlier hop List.mem_cons_self
    have legalBefore : Legal before :=
      ⟨fun other isEarlier => complete other (List.mem_append_left _ isEarlier), unendedBefore⟩
    exact FirstFault.ofHops
      ⟨before, _, after, rfl, legalBefore, .missingPosition goesOn isIndex rfl⟩

end Replaying

theorem PositionPut.ne_null {given : Option Json} {index : Nat} {stored other : Json}
    (put : PositionPut given index stored other) : stored ≠ .null ∧ other ≠ .null := by
  cases put <;> exact ⟨nofun, nofun⟩

/-- **A stored path answers with the position of a hop.** -/
theorem answers_load {given : Option Json} {index : Nat} {stored other : Json}
    (put : PositionPut given index stored other) :
    Answers (positionSlot index) (givenPosition given) (load stored) (load other) := by
  obtain ⟨notNull, notNullToo⟩ := put.ne_null
  intro path loaded
  rw [load_of_ne notNull] at loaded
  obtain ⟨hops, read, built⟩ := bind_eq_ok_iff.mp loaded
  obtain ⟨⟨hop, found, isIndex⟩, readOther⟩ := (answers_read put).locate .path hops read
  obtain ⟨before, after, rfl, rfl⟩ := exists_split_at found
  obtain ⟨isHere, positioned, missing⟩ := ofHops_middle isIndex (replayed_eq_ok_iff.mp built)
  refine ⟨isHere, ?_⟩
  rw [load_of_ne notNullToo, readOther, givenPosition]
  cases StoredPart.path.locate (Counter.readOptional given) with
  | error error => rfl
  | ok position =>
    show replayed ((before ++ hop :: after).modify before.length (Hop.positionSlot.set position)) =
      _
    rw [modify_middle]
    cases position with
    | none =>
      show replayed (before ++ { hop with position := none } :: after) =
        .error (.badPath .missingPosition)
      rw [replayed, missing]
    | some position => exact replayed_eq_ok_iff.mpr (positioned position)

end Path

/-! ### Assignments -/

namespace Assignment

/-- The position of a hop of the path of an assignment. -/
def positionSlot (index : Nat) : Slot Assignment :=
  (Path.positionSlot index).within (·.path) ({ · with path := · })

theorem answers_load {given : Option Json} {index : Nat} {stored other : Json}
    (put : Json.Under "valueExtractor" (Path.PositionPut given index) stored other) :
    Answers (positionSlot index) (Path.givenPosition given) (load stored) (load other) := by
  obtain @⟨before, after, value, next, absent, put⟩ := put
  rw [load_middle absent, load_middle absent]
  refine Answers.bind_of_next (fun assignment => ?_) _
  refine (Path.answers_load put).bind fun path result isHere isResult => ?_
  cases isResult
  exact ⟨isHere, fun position => rfl⟩

end Assignment

end IvrFlow
