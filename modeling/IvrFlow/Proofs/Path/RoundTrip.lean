import IvrFlow.Path.Assignment
import IvrFlow.Proofs.Path.Invariant
import IvrFlow.Proofs.Record.Entries

/-!
Storing value paths. A stored path has its committed hops and nothing else, so a sound path is read
back as it would be with nothing entered since the last commit (`load_toJson_eq_settle`). Assignments
follow.
-/

namespace IvrFlow

/-! ### Hops -/

namespace Hop

@[simp] theorem lossless_kind : HopKind.codec.Lossless :=
  Codec.lossless_word fun kind => by cases kind <;> rfl

/-- A stored hop is read back without its notation, as one that is still to be committed. -/
theorem read_write (hop : Hop) : form.codec.read (form.codec.write hop) = .ok hop.reopen := by
  refine Record.read_obj_of_under (by decide) (under_known_writeFields _ hop) ?_ ?_
  · simp [form, kindField, positionField, propertyField, template, reopen]
  · simp [form, kindField, writeFields, Field.of]

end Hop

/-! ### Paths -/

namespace Path

section Reading

variable {before after entries : Fields} {key : String}

theorem under_known_eq_nil (avoids : entries.Avoids ["operations", "accessOperations"]) :
    entries.under (known form.fields) = [] := by
  refine Fields.under_eq_nil_of_avoids avoids fun key isKnown => ?_
  simpa [known, form, Field.of, Field.accepts] using isKnown

theorem read_of_avoids (avoids : entries.Avoids ["operations", "accessOperations"]) :
    form.codec.read (.obj entries) = .ok [] := by
  show form.readObject entries = .ok []
  rw [Record.readObject, ← readFields_under, under_known_eq_nil avoids]
  rfl

/-- The hops of a stored path are read from the one entry that it has for them. -/
theorem read_operations (isKey : key ∈ ["operations", "accessOperations"])
    (avoids : (before ++ after).Avoids ["operations", "accessOperations"]) (stored : Json) :
    form.codec.read (.obj (before ++ (key, stored) :: after)) =
      (Codec.list Hop.form.codec).read stored := by
  obtain ⟨avoidsBefore, avoidsAfter⟩ := List.forall_mem_append.mp avoids
  have isKnown : known form.fields key = true := by
    rcases List.mem_pair.mp isKey with rfl | rfl <;> decide
  have first : Fields.under (known form.fields) ((key, stored) :: after) =
      (key, stored) :: Fields.under (known form.fields) after :=
    Fields.under_cons_of_chosen isKnown after
  have one : Fields.under (known form.fields) (before ++ (key, stored) :: after) =
      [(key, stored)] := by
    rw [Fields.under, List.filter_append, ← Fields.under, ← Fields.under, first,
      under_known_eq_nil avoidsBefore, under_known_eq_nil avoidsAfter, List.nil_append]
  have reads : readFields form.fields [] form.blank [(key, stored)] =
      (Codec.list Hop.form.codec).read stored := by
    have found : form.fields.find? (·.accepts key) = form.fields.head? := by
      rcases List.mem_pair.mp isKey with rfl | rfl <;> rfl
    rw [readFields, found]
    show (((Codec.list Hop.form.codec).read stored >>= fun hops => .ok hops) >>=
      fun hops => .ok hops) = _
    cases (Codec.list Hop.form.codec).read stored <;> rfl
  show form.readObject _ = _
  rw [Record.readObject, ← readFields_under, one, reads]
  cases (Codec.list Hop.form.codec).read stored <;> rfl

end Reading

/-- The path as it would be with nothing entered since the last commit. -/
def settle (path : Path) : Path := { path with pending := path.pending.map fun _ => .template }

theorem ofHops_append (before after : List Hop) :
    ofHops (before ++ after) = ofHops before >>= fun path => after.foldlM replay path :=
  List.foldlM_append

/-- A sound path is closed exactly when its hops say so, so settling it leaves what they say. -/
theorem Sound.settle_eq {path : Path} (sound : path.Sound) : path.settle = resting path.hops := by
  have closed := sound.closed_eq
  unfold isClosed isWellFormed at closed
  unfold settle resting
  rw [← closed]
  cases path.pending <;> rfl

/-- Replaying a hop on a path that does not end yet puts it there as it is committed. -/
theorem replay_resting {hops : List Hop} {hop result : Hop} (commits : hop.commit = .ok result)
    (isOpen : hops.getLast?.any (·.kind.isTerminal) = false) :
    (resting hops).replay hop = .ok (resting (hops ++ [result])) := by
  have notClosed : ¬ (resting hops).isClosed := by simp [isClosed, resting, isOpen]
  rw [replay, if_neg notClosed]
  exact add_of_commit commits

theorem foldlM_replay_resting :
    ∀ {rest hops : List Hop}, (∀ hop ∈ rest, hop.Committed) →
      (∀ hop ∈ (hops ++ rest).dropLast, hop.kind.isTerminal = false) →
      (rest.map Hop.reopen).foldlM replay (resting hops) = .ok (resting (hops ++ rest))
  | [], hops, _, _ => by rw [List.append_nil]; rfl
  | hop :: rest, hops, committed, terminalLast => by
    have isOpen : hops.getLast?.any (·.kind.isTerminal) = false := by
      cases last : hops.getLast? with
      | none => rfl
      | some before =>
        refine terminalLast before ?_
        rw [List.dropLast_append_of_ne_nil (List.cons_ne_nil hop rest)]
        exact List.mem_append_left _ (List.mem_of_getLast? last)
    have regrouped : hops ++ hop :: rest = (hops ++ [hop]) ++ rest := by simp
    have commits : hop.reopen.commit = .ok hop :=
      hop.commit_reopen.trans (committed hop List.mem_cons_self)
    rw [List.map_cons, List.foldlM_cons, replay_resting commits isOpen, regrouped]
    exact foldlM_replay_resting (fun other member => committed other (List.mem_cons_of_mem _ member))
      (regrouped ▸ terminalLast)

/-- The hops of a sound path, made editable and replayed from the start, build the path again. -/
theorem Sound.ofHops_reopen {path : Path} (sound : path.Sound) :
    ofHops (path.hops.map Hop.reopen) = .ok path.settle := by
  rw [sound.settle_eq]
  have fromStart : ∀ hop ∈ ([] ++ path.hops).dropLast, hop.kind.isTerminal = false :=
    sound.terminalLast
  exact foldlM_replay_resting sound.committed fromStart

/-- **A sound path is read back with its committed hops, and with nothing entered.** -/
theorem Sound.load_toJson {path : Path} (sound : path.Sound) :
    load path.toJson = .ok path.settle := by
  have hops : (Codec.list Hop.form.codec).read
      ((Codec.list Hop.form.codec).write (id path.hops)) = .ok (path.hops.map Hop.reopen) :=
    mapM_eq_ok_map fun hop _ => hop.read_write
  have read : form.codec.read path.toJson = .ok (path.hops.map Hop.reopen) := by
    refine Record.read_obj_of_under (by decide) (under_known_writeFields _ path.hops) ?_
      (by simp [form])
    simp [form, Field.reread_of_read hops]
  show (do replayed (← StoredPart.path.locate (form.codec.read path.toJson))) = _
  rw [read]
  show replayed (path.hops.map Hop.reopen) = _
  rw [replayed, sound.ofHops_reopen]

/-- What hops are replayed to has nothing entered on it since the last of them. -/
theorem eq_resting_of_ofHops {hops : List Hop} {path : Path} (built : ofHops hops = .ok path) :
    path = resting path.hops := by
  rcases List.eq_nil_or_concat hops with rfl | ⟨before, last, rfl⟩
  · cases built
    rfl
  · rw [List.concat_eq_append, ofHops_append] at built
    obtain ⟨earlier, _, built⟩ := bind_eq_ok_iff.mp built
    obtain ⟨result, replayed, same⟩ := bind_eq_ok_iff.mp built
    cases same
    unfold replay at replayed
    split at replayed
    · cases replayed
    · obtain ⟨_, _, _, _, rfl⟩ := add_cases replayed
      rfl

/-- What is loaded has nothing entered on it. -/
theorem settle_of_load {stored : Json} {path : Path} (loaded : load stored = .ok path) :
    path.settle = path := by
  rw [(sound_load loaded).settle_eq]
  unfold load at loaded
  split at loaded
  · cases loaded
    rfl
  · obtain ⟨hops, _, built⟩ := bind_eq_ok_iff.mp loaded
    exact (eq_resting_of_ofHops (replayed_eq_ok_iff.mp built)).symm

theorem settle_of_isClosed {path : Path} (closed : path.isClosed = true) : path.settle = path := by
  rw [isClosed, Option.isNone_iff_eq_none] at closed
  rw [settle, closed]
  exact congrArg (mk path.hops) closed.symm

theorem settle_of_isOpen {path : Path} (isOpen : path.isClosed = false) :
    path.settle = { path with pending := some .template } := by
  obtain ⟨hop, pending⟩ := Option.isSome_iff_exists.mp (Option.isNone_eq_false_iff.mp isOpen)
  rw [settle, pending]
  rfl

/-- The stored form of a sound path shows its committed hops, all that they hold included. -/
theorem Sound.toJson_eq_iff {path other : Path} (sound : path.Sound) (soundToo : other.Sound) :
    path.toJson = other.toJson ↔ path.hops = other.hops := by
  constructor
  · intro same
    have settled : path.settle = other.settle :=
      Except.ok.inj (sound.load_toJson.symm.trans (same ▸ soundToo.load_toJson))
    have kept : path.settle.hops = other.settle.hops := congrArg hops settled
    exact kept
  · exact fun same => congrArg form.codec.write same

/-- **What storing keeps of a path.** Whatever loading and editing give is stored and loaded with all
that is committed, and with a fresh hop to edit if it is open. What is pending shows neither in the
stored form nor in the notation, while two paths with other hops are stored differently. What has
been loaded is loaded again as it is. -/
theorem load_toJson_eq_settle :
    (∀ path, Reachable path →
        load path.toJson = .ok path.settle ∧
          (path.isClosed = true → path.settle = path) ∧
          (path.isClosed = false → path.settle = { path with pending := some .template }) ∧
          path.settle.hops = path.hops ∧ path.settle.expression = path.expression ∧
          path.settle.isClosed = path.isClosed ∧ path.settle.isWellFormed = path.isWellFormed) ∧
      (∀ path change, (edit change path).toJson = path.toJson ∧
        (edit change path).expression = path.expression) ∧
      (∀ path other, Reachable path → Reachable other →
        (path.toJson = other.toJson ↔ path.hops = other.hops)) ∧
      ∀ stored path, load stored = .ok path → load path.toJson = .ok path := by
  refine ⟨fun path reachable => ?_, fun _ _ => ⟨rfl, rfl⟩, fun _ _ reachable reachableToo =>
    reachable.sound.toJson_eq_iff reachableToo.sound, fun stored path loaded => ?_⟩
  · exact ⟨reachable.sound.load_toJson, settle_of_isClosed, settle_of_isOpen, rfl, rfl,
      Option.isNone_map, rfl⟩
  · rw [(sound_load loaded).load_toJson, settle_of_load loaded]

/-- A path with one hop, and another that is still edited. -/
def draft : Path := ⟨[.committedProperty "items"], some (.toIndex 4)⟩

theorem reachable_draft : draft.Reachable := by
  have named : (empty.edit fun _ => .toProperty "items").Reachable :=
    .edit (fun _ => .toProperty "items") .empty
  have added : Reachable (resting [.committedProperty "items"]) := .add named rfl
  exact .edit (fun _ => .toIndex 4) added

/-- The hop that is edited is not stored: a fresh one is in its place afterwards. -/
theorem load_toJson_draft :
    load draft.toJson = .ok (resting [.committedProperty "items"]) ∧
      load (resting [.committedProperty "items"]).toJson =
        .ok (resting [.committedProperty "items"]) := by
  obtain ⟨kept, _, _, again⟩ := load_toJson_eq_settle
  have loaded := (kept draft reachable_draft).1
  exact ⟨loaded, again _ _ loaded⟩

end Path

/-! ### Assignments -/

namespace Assignment

@[simp] theorem lossless_scope : Scope.codec.Lossless :=
  Codec.lossless_word fun scope => by cases scope <;> rfl

/-- An assignment is loaded as what it has besides its path, and then the path. -/
theorem load_middle {before after : Fields} (absent : before.lookup "valueExtractor" = none)
    (path : Json) :
    load (.obj (before ++ ("valueExtractor", path) :: after)) =
      StoredPart.assignment.locate (form.codec.read (.obj (before ++ after))) >>=
        fun assignment => Path.load path >>= fun path => .ok { assignment with path := path } := by
  have read : form.codec.read (.obj (before ++ ("valueExtractor", path) :: after)) =
      form.codec.read (.obj (before ++ after)) :=
    Record.readObject_middle_of_unknown (by decide) rfl
  rw [load, read]
  simp only [Json.get?, Fields.lookup_middle absent]
  rfl

/-- The assignment with nothing entered on its path since the last commit. -/
def settle (assignment : Assignment) : Assignment :=
  { assignment with path := assignment.path.settle }

theorem load_toJson {assignment : Assignment} (sound : assignment.path.Sound) :
    load assignment.toJson = .ok assignment.settle := by
  have own : Fields.under (known form.fields) ((writeFields form.fields assignment).insert
      "valueExtractor" assignment.path.toJson) = writeFields form.fields assignment := by
    rw [Fields.under_insert_of_not _ (by decide), under_known_writeFields]
  have read : form.codec.read assignment.toJson = .ok { assignment with path := .empty } := by
    refine Record.read_obj_of_under (by decide) own ?_ (by simp [form])
    simp [form, blank]
  have path : assignment.toJson.get? "valueExtractor" = some assignment.path.toJson :=
    Fields.lookup_insert_self _ _ _
  rw [load, read, path]
  show (do return { assignment with path := ← Path.load assignment.path.toJson }) = _
  rw [sound.load_toJson]
  rfl

@[simp] theorem toJson_settle (assignment : Assignment) :
    assignment.settle.toJson = assignment.toJson := rfl

end Assignment

end IvrFlow
