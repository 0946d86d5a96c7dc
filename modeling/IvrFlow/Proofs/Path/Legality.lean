import IvrFlow.Proofs.Path.Representation

/-!
The stored paths that are accepted. Stored hops are `Legal` if each of them holds what its kind needs
and none follows the terminal one; if they are not, `FirstFault` says what is wrong with the first
hop that breaks this. Neither mentions committing. A stored path is loaded exactly when its hops are
legal, and refused for their first fault otherwise (`load_outcome`).
-/

namespace IvrFlow

namespace Hop

/-- A hop that holds what its kind needs. -/
def Complete (hop : Hop) : Prop :=
  match hop.kind with
  | .property => ∃ name, name ≠ "" ∧ hop.property = some name
  | .index => ∃ position, hop.position = some position
  | .terminal => True

/-- How a hop of a path comes from a stored hop: it is frozen, of the same kind, and has the field
that this kind reads as it was stored. -/
structure Keeps (stored hop : Hop) : Prop where
  frozen : hop.Frozen
  kind_eq : hop.kind = stored.kind
  property_eq : stored.kind = .property → hop.property = stored.property
  position_eq : stored.kind = .index → hop.position = stored.position

/-- A complete hop can be committed, and that keeps what its kind reads. -/
theorem Complete.exists_commit {hop : Hop} (complete : hop.Complete) :
    ∃ result, hop.commit = .ok result ∧ hop.Keeps result := by
  obtain ⟨kind, fixed, property, position, rendered⟩ := hop
  cases kind with
  | property =>
    obtain ⟨name, named, rfl⟩ := complete
    exact ⟨committedProperty name, commit_property rfl rfl named,
      ⟨rfl, name, named, rfl, rfl, rfl⟩, rfl, fun _ => rfl, (nomatch ·)⟩
  | index =>
    obtain ⟨position, rfl⟩ := complete
    exact ⟨committedIndex position, commit_index rfl rfl,
      ⟨rfl, position, rfl, rfl, rfl⟩, rfl, (nomatch ·), fun _ => rfl⟩
  | terminal =>
    exact ⟨committedValue, commit_terminal rfl,
      ⟨rfl, rfl, rfl, rfl⟩, rfl, (nomatch ·), (nomatch ·)⟩

/-- A stored hop is kept as it is committed. -/
theorem Keeps.commit_eq {stored hop : Hop} (keeps : stored.Keeps hop) : stored.commit = .ok hop := by
  have committed : hop.commit = .ok hop := frozen_iff_committed.mp keeps.frozen
  have same : stored.commit = hop.commit := by
    rw [commit, commit, keeps.kind_eq]
    cases kind : stored.kind with
    | property => simp only [keeps.property_eq kind]
    | index => simp only [keeps.position_eq kind]
    | terminal => rfl
  exact same.trans committed

/-- Whether hops end in the terminal one depends on their kinds alone. -/
theorem endsTerminal_of_kinds {hops others : List Hop} (kinds : hops.map kind = others.map kind) :
    hops.getLast?.any (·.kind.isTerminal) = others.getLast?.any (·.kind.isTerminal) := by
  have ends (hops : List Hop) : hops.getLast?.any (·.kind.isTerminal) =
      (hops.map kind).getLast?.any HopKind.isTerminal := by
    rw [List.getLast?_map, Option.any_map]
  rw [ends, ends, kinds]

/-- Kept hops are of the kinds of the stored ones, so they end in the terminal hop if those do. -/
theorem endsTerminal_of_keeps {stored hops : List Hop} (kept : List.Forall₂ Keeps stored hops) :
    hops.getLast?.any (·.kind.isTerminal) = stored.getLast?.any (·.kind.isTerminal) := by
  refine endsTerminal_of_kinds ?_
  induction kept with
  | nil => rfl
  | cons first _ ih => rw [List.map_cons, List.map_cons, first.kind_eq, ih]

end Hop

namespace Path

/-! ### Legal hops and faults -/

/-- Stored hops that make a path. -/
structure Legal (hops : List Hop) : Prop where
  complete : ∀ hop ∈ hops, hop.Complete
  unended : hops.Pairwise fun earlier _ => earlier.kind ≠ .terminal

/-- What is wrong with a hop that comes behind others. Nothing may follow the terminal hop, whatever
it holds; otherwise the hop may lack what its kind needs. -/
inductive Faulty (before : List Hop) (hop : Hop) : PathError → Prop where
  | closed {earlier : Hop} : earlier ∈ before → earlier.kind = .terminal → Faulty before hop .closed
  | missingProperty : (∀ earlier ∈ before, earlier.kind ≠ .terminal) → hop.kind = .property →
      (∀ name, hop.property = some name → name = "") → Faulty before hop .missingProperty
  | missingPosition : (∀ earlier ∈ before, earlier.kind ≠ .terminal) → hop.kind = .index →
      hop.position = none → Faulty before hop .missingPosition

/-- What is wrong with the first of stored hops that does not go on with those before it. -/
def FirstFault (hops : List Hop) (fault : PathError) : Prop :=
  ∃ before hop after, hops = before ++ hop :: after ∧ Legal before ∧ Faulty before hop fault

theorem legal_concat_iff {before : List Hop} {hop : Hop} :
    Legal (before ++ [hop]) ↔
      Legal before ∧ (∀ earlier ∈ before, earlier.kind ≠ .terminal) ∧ hop.Complete := by
  constructor
  · rintro ⟨complete, unended⟩
    obtain ⟨early, last⟩ := List.forall_mem_append.mp complete
    obtain ⟨unendedEarly, _, between⟩ := List.pairwise_append.mp unended
    exact ⟨⟨early, unendedEarly⟩,
      fun earlier isEarlier => between earlier isEarlier hop (List.mem_singleton_self hop),
      List.forall_mem_singleton.mp last⟩
  · rintro ⟨⟨early, unendedEarly⟩, goesOn, last⟩
    exact ⟨List.forall_mem_append.mpr ⟨early, List.forall_mem_singleton.mpr last⟩,
      List.pairwise_append.mpr ⟨unendedEarly, List.pairwise_singleton _ hop,
        fun earlier isEarlier _ _ => goesOn earlier isEarlier⟩⟩

/-- Legal hops have the terminal one nowhere but at their end. -/
theorem Legal.endsTerminal_iff {hops : List Hop} (legal : Legal hops) :
    hops.getLast?.any (·.kind.isTerminal) = true ↔ ∃ hop ∈ hops, hop.kind = .terminal := by
  rcases List.eq_nil_or_concat hops with rfl | ⟨before, last, rfl⟩
  · simp
  · rw [List.concat_eq_append] at legal ⊢
    obtain ⟨_, goesOn, _⟩ := legal_concat_iff.mp legal
    rw [List.getLast?_concat, Option.any_some, HopKind.isTerminal, beq_iff_eq]
    constructor
    · exact fun isTerminal => ⟨last, List.mem_append_right before (List.mem_singleton_self last),
        isTerminal⟩
    · rintro ⟨hop, isHop, isTerminal⟩
      rcases List.mem_append.mp isHop with early | isLast
      · exact absurd isTerminal (goesOn hop early)
      · rw [← List.mem_singleton.mp isLast]
        exact isTerminal

/-- A hop behind others either goes on with them or has a fault. -/
theorem goesOn_or_faulty (before : List Hop) (hop : Hop) :
    ((∀ earlier ∈ before, earlier.kind ≠ .terminal) ∧ hop.Complete) ∨
      ∃ fault, Faulty before hop fault := by
  by_cases ended : ∃ earlier ∈ before, earlier.kind = .terminal
  · obtain ⟨earlier, isEarlier, isTerminal⟩ := ended
    exact Or.inr ⟨.closed, .closed isEarlier isTerminal⟩
  · have goesOn : ∀ earlier ∈ before, earlier.kind ≠ .terminal :=
      fun earlier isEarlier isTerminal => ended ⟨earlier, isEarlier, isTerminal⟩
    obtain ⟨kind, fixed, property, position, rendered⟩ := hop
    cases kind with
    | property =>
      by_cases named : ∃ name, name ≠ "" ∧ property = some name
      · exact Or.inl ⟨goesOn, named⟩
      · refine Or.inr ⟨.missingProperty, .missingProperty goesOn rfl fun name isName => ?_⟩
        exact of_not_not fun nonempty => named ⟨name, nonempty, isName⟩
    | index =>
      cases position with
      | none => exact Or.inr ⟨.missingPosition, .missingPosition goesOn rfl rfl⟩
      | some position => exact Or.inl ⟨goesOn, position, rfl⟩
    | terminal => exact Or.inl ⟨goesOn, trivial⟩

/-- Stored hops that do not make a path have a first fault. -/
theorem legal_or_firstFault (hops : List Hop) : Legal hops ∨ ∃ fault, FirstFault hops fault := by
  induction hops using List.reverseRecOn with
  | nil => exact Or.inl ⟨List.forall_mem_nil _, .nil⟩
  | append_singleton before hop ih =>
    rcases ih with legal | ⟨fault, early, other, after, rfl, legal, faulty⟩
    · rcases goesOn_or_faulty before hop with goesOn | ⟨fault, faulty⟩
      · exact Or.inl (legal_concat_iff.mpr ⟨legal, goesOn⟩)
      · exact Or.inr ⟨fault, before, hop, [], rfl, legal, faulty⟩
    · refine Or.inr ⟨fault, early, other, after ++ [hop], ?_, legal, faulty⟩
      rw [List.append_assoc, List.cons_append]

/-! ### Replaying -/

/-- Legal hops are replayed one by one, and each is kept. -/
theorem Legal.ofHops {hops : List Hop} (legal : Legal hops) :
    ∃ kept, List.Forall₂ Hop.Keeps hops kept ∧ Path.ofHops hops = .ok (resting kept) := by
  -- Whether a hop goes on depends on all hops before it, so the induction takes the last one off.
  induction hops using List.reverseRecOn with
  | nil => exact ⟨[], .nil, rfl⟩
  | append_singleton before hop ih =>
    obtain ⟨legalBefore, goesOn, complete⟩ := legal_concat_iff.mp legal
    obtain ⟨kept, keeps, built⟩ := ih legalBefore
    obtain ⟨result, commits, keepsLast⟩ := complete.exists_commit
    have isOpen : kept.getLast?.any (·.kind.isTerminal) = false := by
      rw [Hop.endsTerminal_of_keeps keeps, Bool.eq_false_iff, ne_eq, legalBefore.endsTerminal_iff]
      rintro ⟨earlier, isEarlier, isTerminal⟩
      exact goesOn earlier isEarlier isTerminal
    refine ⟨kept ++ [result], List.rel_append keeps (.cons keepsLast .nil), ?_⟩
    rw [ofHops_append, built]
    exact (bind_pure _).trans (replay_resting commits isOpen)

/-- A faulty hop is not replayed on what the legal hops before it make. -/
theorem Faulty.replay {before kept : List Hop} {hop : Hop} {fault : PathError}
    (faulty : Faulty before hop fault) (legal : Legal before)
    (keeps : List.Forall₂ Hop.Keeps before kept) : (resting kept).replay hop = .error fault := by
  have closed : (resting kept).isClosed = true ↔ ∃ hop ∈ before, hop.kind = .terminal := by
    rw [isClosed_resting, isWellFormed, resting, Hop.endsTerminal_of_keeps keeps,
      legal.endsTerminal_iff]
  have refused (goesOn : ∀ earlier ∈ before, earlier.kind ≠ .terminal)
      (fails : hop.commit = .error fault) : (resting kept).replay hop = .error fault := by
    have isOpen : ¬ (resting kept).isClosed = true := by
      rw [closed]
      rintro ⟨earlier, isEarlier, isTerminal⟩
      exact goesOn earlier isEarlier isTerminal
    rw [Path.replay, if_neg isOpen, Path.add]
    simp only [fails]
    rfl
  cases faulty with
  | closed isEarlier isTerminal =>
    rw [Path.replay, if_pos (closed.mpr ⟨_, isEarlier, isTerminal⟩)]
  | missingProperty goesOn kind unnamed =>
    refine refused goesOn ?_
    cases property : hop.property with
    | none => simp only [Hop.commit, kind, property]
    | some name =>
      cases unnamed name property
      simp only [Hop.commit, kind, property]
  | missingPosition goesOn kind unpositioned =>
    refine refused goesOn ?_
    simp only [Hop.commit, kind, unpositioned]

theorem FirstFault.ofHops {hops : List Hop} {fault : PathError} (first : FirstFault hops fault) :
    Path.ofHops hops = .error fault := by
  obtain ⟨before, hop, after, rfl, legal, faulty⟩ := first
  obtain ⟨kept, keeps, built⟩ := legal.ofHops
  rw [ofHops_append, built]
  show (hop :: after).foldlM Path.replay (resting kept) = .error fault
  rw [List.foldlM_cons, faulty.replay legal keeps]
  rfl

theorem ofHops_eq_error_iff {hops : List Hop} {fault : PathError} :
    ofHops hops = .error fault ↔ FirstFault hops fault := by
  refine ⟨fun fails => ?_, FirstFault.ofHops⟩
  rcases legal_or_firstFault hops with legal | ⟨other, first⟩
  · obtain ⟨_, _, built⟩ := legal.ofHops
    cases fails.symm.trans built
  · cases fails.symm.trans first.ofHops
    exact first

theorem replayed_eq_error_iff {hops : List Hop} {error : StepError} :
    replayed hops = .error error ↔ ∃ fault, error = .badPath fault ∧ ofHops hops = .error fault := by
  unfold replayed
  cases ofHops hops with
  | ok path => simp only [reduceCtorEq, and_false, exists_false]
  | error fault =>
    simp only [Except.error.injEq, exists_eq_right']
    exact eq_comm

theorem exists_path_iff_legal {hops : List Hop} :
    (∃ path, ofHops hops = .ok path) ↔ Legal hops := by
  constructor
  · rintro ⟨path, built⟩
    rcases legal_or_firstFault hops with legal | ⟨fault, first⟩
    · exact legal
    · cases built.symm.trans first.ofHops
  · intro legal
    obtain ⟨kept, _, built⟩ := legal.ofHops
    exact ⟨resting kept, built⟩

/-- What hops are replayed to keeps them, and is closed if they end in the terminal one. -/
theorem keeps_of_ofHops {hops : List Hop} {path : Path} (built : ofHops hops = .ok path) :
    List.Forall₂ Hop.Keeps hops path.hops ∧
      (path.isClosed = true ↔ ∃ last, hops.getLast? = some last ∧ last.kind = .terminal) ∧
      (path.isClosed = false → path.pending = some .template) := by
  obtain ⟨kept, keeps, builtToo⟩ := (exists_path_iff_legal.mp ⟨path, built⟩).ofHops
  cases built.symm.trans builtToo
  refine ⟨keeps, ?_, fun isOpen => ?_⟩
  · rw [isClosed_resting, isWellFormed, resting, Hop.endsTerminal_of_keeps keeps,
      Option.any_eq_true]
    simp only [HopKind.isTerminal, beq_iff_eq]
  · rw [isClosed_resting] at isOpen
    exact if_neg (Bool.eq_false_iff.mp isOpen)

/-! ### Loading -/

/-- **Which stored paths are accepted.** A stored path with some hops is loaded exactly when they are
legal. It then has one hop for each of them, in order, with what its kind reads, and is closed if the
last of them is terminal. Otherwise it is refused for the first fault. -/
theorem load_outcome {stored : Json} {hops : List Hop} (read : form.codec.read stored = .ok hops) :
    ((∃ path, load stored = .ok path) ↔ Legal hops) ∧
      (∀ path, load stored = .ok path →
        List.Forall₂ Hop.Keeps hops path.hops ∧
          (path.isClosed = true ↔ ∃ last, hops.getLast? = some last ∧ last.kind = .terminal) ∧
          (path.isClosed = false → path.pending = some .template)) ∧
      ∀ error, load stored = .error error ↔
        ∃ fault, error = .badPath fault ∧ FirstFault hops fault := by
  have outcome : load stored = replayed hops := by
    cases stored with
    | null => cases read
    | bool | num | str | arr | obj =>
      simp only [load, read]
      rfl
  refine ⟨?_, fun path loaded => ?_, fun error => ?_⟩
  · simp only [outcome, replayed_eq_ok_iff]
    exact exists_path_iff_legal
  · exact keeps_of_ofHops (replayed_eq_ok_iff.mp (outcome.symm.trans loaded))
  · simp only [outcome, replayed_eq_error_iff, ofHops_eq_error_iff]

/-- A stored path to the value that a property has, with something behind it. -/
def storedBeyond (beyond : List Json) : Json :=
  .obj [("operations", .arr (.obj [("kind", .str "property"), ("property", .str "data")] ::
    .obj [("kind", .str "value"), ("property", .str "left over")] :: beyond))]

/-- The path is closed by the value. A hop behind that is refused for being there, whatever else it
lacks. -/
theorem load_outcome_beyond :
    (∃ path, load (storedBeyond []) = .ok path ∧ path.isClosed = true) ∧
      load (storedBeyond [.obj [("kind", .str "property")]]) = .error (.badPath .closed) := by
  have read : form.codec.read (storedBeyond []) =
      .ok [.toProperty "data", { Hop.toValue with property := some "left over" }] := rfl
  have readToo : form.codec.read (storedBeyond [.obj [("kind", .str "property")]]) =
      .ok [.toProperty "data", { Hop.toValue with property := some "left over" }, .template] := rfl
  have legal : Legal [.toProperty "data", { Hop.toValue with property := some "left over" }] := by
    refine ⟨List.forall_mem_cons.mpr ⟨⟨"data", by decide, rfl⟩, ?_⟩, ?_⟩
    · exact List.forall_mem_singleton.mpr trivial
    · exact List.pairwise_pair.mpr (by decide)
  obtain ⟨accepted, held, _⟩ := load_outcome read
  obtain ⟨_, _, refused⟩ := load_outcome readToo
  constructor
  · obtain ⟨path, loaded⟩ := accepted.mpr legal
    exact ⟨path, loaded, (held path loaded).2.1.mpr ⟨_, rfl, rfl⟩⟩
  · refine (refused _).mpr ⟨.closed, rfl, _, _, [], rfl, legal, ?_⟩
    exact .closed (List.mem_cons_of_mem _ List.mem_cons_self) rfl

end Path

end IvrFlow
