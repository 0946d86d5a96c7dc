import IvrFlow.Path.Load
import IvrFlow.Proofs.Record.Frame

/-!
The states of a value path. `Reachable` are the paths that editing and loading can give, and `Sound`
is what they have in common: the committed hops are as committing made them, none but the last of
them is terminal, and the path is closed exactly when it is well formed.
-/

namespace IvrFlow

/-! ### Committed hops -/

namespace Hop

/-- The committed hop to a property. -/
def committedProperty (name : String) : Hop := ⟨.property, true, some name, none, some ("." ++ name)⟩

/-- The committed hop to an item. -/
def committedIndex (position : UInt32) : Hop :=
  ⟨.index, true, none, some position, some ("[" ++ toString position.toNat ++ "]")⟩

/-- The committed hop that ends a path. -/
def committedValue : Hop := ⟨.terminal, true, none, none, some " value"⟩

theorem commit_property {hop : Hop} {name : String} (kind : hop.kind = .property)
    (property : hop.property = some name) (named : name ≠ "") :
    hop.commit = .ok (committedProperty name) := by
  simp only [commit, kind, property]
  rfl

theorem commit_index {hop : Hop} {position : UInt32} (kind : hop.kind = .index)
    (positioned : hop.position = some position) : hop.commit = .ok (committedIndex position) := by
  simp only [commit, kind, positioned]
  rfl

theorem commit_terminal {hop : Hop} (kind : hop.kind = .terminal) :
    hop.commit = .ok committedValue := by
  simp only [commit, kind]
  rfl

/-- A hop that can be committed holds what its kind needs, and that alone says what it becomes. -/
theorem commit_cases {hop result : Hop} (commits : hop.commit = .ok result) :
    (∃ name, hop.kind = .property ∧ hop.property = some name ∧ name ≠ "" ∧
        result = committedProperty name) ∨
      (∃ position, hop.kind = .index ∧ hop.position = some position ∧
        result = committedIndex position) ∨
      (hop.kind = .terminal ∧ result = committedValue) := by
  cases kind : hop.kind with
  | property =>
    cases property : hop.property with
    | none => simp [commit, kind, property] at commits
    | some name =>
      by_cases named : name = ""
      · simp [commit, kind, property, named] at commits
      · rw [commit_property kind property named] at commits
        exact Or.inl ⟨name, rfl, rfl, named, (Except.ok.inj commits).symm⟩
  | index =>
    cases positioned : hop.position with
    | none => simp [commit, kind, positioned] at commits
    | some position =>
      rw [commit_index kind positioned] at commits
      exact Or.inr (Or.inl ⟨position, rfl, rfl, (Except.ok.inj commits).symm⟩)
  | terminal =>
    rw [commit_terminal kind] at commits
    exact Or.inr (Or.inr ⟨rfl, (Except.ok.inj commits).symm⟩)

/-- A hop as committing leaves it: committing it once more changes nothing. -/
def Committed (hop : Hop) : Prop := hop.commit = .ok hop

theorem committed_of_commit {hop result : Hop} (commits : hop.commit = .ok result) :
    result.Committed := by
  rcases commit_cases commits with ⟨name, -, -, named, rfl⟩ | ⟨position, -, -, rfl⟩ | ⟨-, rfl⟩
  · exact commit_property rfl rfl named
  · exact commit_index rfl rfl
  · exact commit_terminal rfl

/-- Reopening a hop loses nothing that committing it again needs. -/
@[simp] theorem commit_reopen (hop : Hop) : hop.reopen.commit = hop.commit := rfl

end Hop

namespace Path

/-! ### The invariant -/

/-- What holds of every path that editing or loading gives. -/
structure Sound (path : Path) : Prop where
  committed : ∀ hop ∈ path.hops, hop.Committed
  terminalLast : ∀ hop ∈ path.hops.dropLast, hop.kind.isTerminal = false
  closed_eq : path.isClosed = path.isWellFormed

/-- The path with some committed hops, on which nothing has been entered since. -/
def resting (hops : List Hop) : Path :=
  ⟨hops, if hops.getLast?.any (·.kind.isTerminal) then none else some .template⟩

@[simp] theorem isClosed_resting (hops : List Hop) :
    (resting hops).isClosed = (resting hops).isWellFormed := by
  cases last : hops.getLast?.any (·.kind.isTerminal) <;> simp [resting, isClosed, isWellFormed, last]

theorem sound_empty : Sound empty where
  committed := by simp [empty]
  terminalLast := by simp [empty]
  closed_eq := rfl

theorem add_of_commit {hops : List Hop} {hop result : Hop} (commits : hop.commit = .ok result) :
    add ⟨hops, some hop⟩ = .ok (resting (hops ++ [result])) := by
  simp only [add, commits, ok_bind, resting, List.getLast?_concat, Option.any_some]
  rfl

/-- Adding a hop puts it, committed, at the end of a path that was open. -/
theorem add_cases {path result : Path} (added : path.add = .ok result) :
    ∃ pending hop, path.pending = some pending ∧ pending.commit = .ok hop ∧
      result = resting (path.hops ++ [hop]) := by
  unfold add at added
  cases slot : path.pending with
  | none => simp [slot] at added
  | some pending =>
    simp only [slot] at added
    obtain ⟨hop, commits, isResult⟩ := bind_eq_ok_iff.mp added
    refine ⟨pending, hop, rfl, commits, ?_⟩
    rw [← pure_eq_ok_iff.mp isResult, resting, List.getLast?_concat, Option.any_some]

/-- In an open sound path no hop is terminal, so another may follow. -/
theorem Sound.not_isTerminal {path : Path} (sound : path.Sound) (isOpen : path.isClosed = false) :
    ∀ hop ∈ path.hops, hop.kind.isTerminal = false := by
  intro hop member
  rcases List.eq_nil_or_concat path.hops with none | ⟨before, last, split⟩
  · rw [none] at member
    cases member
  · have notLast : last.kind.isTerminal = false := by
      have := sound.closed_eq.symm.trans isOpen
      rwa [isWellFormed, split, List.concat_eq_append, List.getLast?_concat] at this
    rw [split, List.concat_eq_append] at member
    rcases List.mem_append.mp member with earlier | isLast
    · refine sound.terminalLast hop ?_
      rwa [split, List.concat_eq_append, List.dropLast_concat]
    · rw [List.mem_singleton.mp isLast]
      exact notLast

theorem Sound.add {path result : Path} (sound : path.Sound) (added : path.add = .ok result) :
    result.Sound := by
  obtain ⟨pending, hop, slot, commits, rfl⟩ := add_cases added
  have isOpen : path.isClosed = false := by simp [isClosed, slot]
  refine ⟨fun other member => ?_, fun other member => ?_, isClosed_resting _⟩
  · rcases List.mem_append.mp member with earlier | isLast
    · exact sound.committed other earlier
    · rw [List.mem_singleton.mp isLast]
      exact Hop.committed_of_commit commits
  · rw [resting, List.dropLast_concat] at member
    exact sound.not_isTerminal isOpen other member

/-- A path that is finished is one that a hop has been added to. -/
theorem add_of_finish {path result : Path} (finished : path.finish = .ok result) :
    path.add = .ok result := by
  unfold finish at finished
  split at finished
  · cases finished
  · split at finished
    · exact finished
    · cases finished

theorem Sound.finish {path result : Path} (sound : path.Sound)
    (finished : path.finish = .ok result) : result.Sound :=
  sound.add (add_of_finish finished)

theorem Sound.pop {path : Path} (sound : path.Sound) : path.pop.Sound := by
  unfold Path.pop
  cases last : path.hops.getLast? with
  | none => exact sound
  | some hop =>
    refine ⟨fun other member => sound.committed other (List.dropLast_subset _ member),
      fun other member => sound.terminalLast other (List.dropLast_subset _ member), ?_⟩
    -- What is left was not last before, so it does not end in the terminal hop.
    have notTerminal : path.hops.dropLast.getLast?.any (·.kind.isTerminal) = false := by
      cases before : path.hops.dropLast.getLast? with
      | none => rfl
      | some other => exact sound.terminalLast other (List.mem_of_getLast? before)
    exact notTerminal.symm

theorem Sound.edit {path : Path} (sound : path.Sound) (change : Hop → Hop) :
    (path.edit change).Sound where
  committed := sound.committed
  terminalLast := sound.terminalLast
  closed_eq := by
    rw [isClosed, Path.edit, Option.isNone_map]
    exact sound.closed_eq

theorem Sound.replay {path result : Path} {hop : Hop} (sound : path.Sound)
    (replayed : path.replay hop = .ok result) : result.Sound := by
  unfold Path.replay at replayed
  split at replayed
  · cases replayed
  · rename_i isOpen
    have prepared : Sound { path with pending := some hop } :=
      ⟨sound.committed, sound.terminalLast,
        ((Bool.not_eq_true _).mp isOpen).symm.trans sound.closed_eq⟩
    exact prepared.add replayed

theorem sound_ofHops {hops : List Hop} {path : Path} (built : ofHops hops = .ok path) :
    path.Sound := by
  suffices ∀ (hops : List Hop) (start : Path), start.Sound →
      hops.foldlM Path.replay start = .ok path → path.Sound from this hops empty sound_empty built
  intro hops
  induction hops with
  | nil =>
    intro start sound built
    cases built
    exact sound
  | cons hop rest ih =>
    intro start sound built
    rw [List.foldlM_cons] at built
    obtain ⟨next, first, built⟩ := bind_eq_ok_iff.mp built
    exact ih next (sound.replay first) built

theorem replayed_eq_ok_iff {hops : List Hop} {path : Path} :
    replayed hops = .ok path ↔ ofHops hops = .ok path := by
  unfold replayed
  cases ofHops hops with
  | ok built => simp only [Except.ok.injEq]
  | error fault => simp only [reduceCtorEq]

theorem load_of_ne {stored : Json} (notNull : stored ≠ .null) :
    load stored = StoredPart.path.locate (form.codec.read stored) >>= replayed := by
  cases stored with
  | null => exact absurd rfl notNull
  | bool | num | str | arr | obj => rfl

theorem sound_load {stored : Json} {path : Path} (loaded : load stored = .ok path) :
    path.Sound := by
  unfold load at loaded
  split at loaded
  · cases loaded
    exact sound_empty
  · obtain ⟨hops, _, built⟩ := bind_eq_ok_iff.mp loaded
    exact sound_ofHops (replayed_eq_ok_iff.mp built)

/-! ### Reachable paths -/

/-- The paths that loading and editing can give. The pending hop may be changed into anything. -/
inductive Reachable : Path → Prop where
  | empty : Reachable empty
  | load {stored : Json} {path : Path} : Path.load stored = .ok path → Reachable path
  | add {path result : Path} : Reachable path → path.add = .ok result → Reachable result
  | finish {path result : Path} : Reachable path → path.finish = .ok result → Reachable result
  | pop {path : Path} : Reachable path → Reachable path.pop
  | edit {path : Path} (change : Hop → Hop) : Reachable path → Reachable (path.edit change)

theorem Reachable.sound {path : Path} (reachable : path.Reachable) : path.Sound := by
  induction reachable with
  | empty => exact sound_empty
  | load loaded => exact sound_load loaded
  | add _ added ih => exact ih.add added
  | finish _ finished ih => exact ih.finish finished
  | pop _ ih => exact ih.pop
  | edit change _ ih => exact ih.edit change

end Path

end IvrFlow
