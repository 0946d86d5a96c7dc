import IvrFlow.Proofs.Path.RoundTrip

/-!
The representation of value paths. `Represented` says what a path holds, in terms of its hops and
their fields alone. Every path that editing and loading can give is represented so, and every path
that is represented so can be had (`reachable_iff_represented`): the invariant leaves no state out
and lets no other in.
-/

namespace IvrFlow

namespace Hop

/-- A hop as it stands in a path: fixed, with the field that its kind reads and no other, and in the
notation that this field gives. -/
def Frozen (hop : Hop) : Prop :=
  hop.fixed = true ∧
    match hop.kind with
    | .property => ∃ name, name ≠ "" ∧ hop.property = some name ∧ hop.position = none ∧
        hop.rendered = some ("." ++ name)
    | .index => ∃ position, hop.property = none ∧ hop.position = some position ∧
        hop.rendered = some ("[" ++ toString position.toNat ++ "]")
    | .terminal => hop.property = none ∧ hop.position = none ∧ hop.rendered = some " value"

/-- The frozen hops are those that committing makes. -/
theorem frozen_iff_committed {hop : Hop} : hop.Frozen ↔ hop.Committed := by
  constructor
  · intro frozen
    obtain ⟨kind, fixed, property, position, rendered⟩ := hop
    cases kind with
    | property =>
      obtain ⟨rfl, name, named, rfl, rfl, rfl⟩ := frozen
      exact commit_property rfl rfl named
    | index =>
      obtain ⟨rfl, position, rfl, rfl, rfl⟩ := frozen
      exact commit_index rfl rfl
    | terminal =>
      obtain ⟨rfl, rfl, rfl, rfl⟩ := frozen
      exact commit_terminal rfl
  · intro committed
    rcases commit_cases committed with ⟨name, -, -, named, rfl⟩ | ⟨position, -, -, rfl⟩ | ⟨-, rfl⟩
    · exact ⟨rfl, name, named, rfl, rfl, rfl⟩
    · exact ⟨rfl, position, rfl, rfl, rfl⟩
    · exact ⟨rfl, rfl, rfl, rfl⟩

end Hop

namespace Path

/-- How a path is represented. Its hops are frozen, the terminal hop stands nowhere but at the end,
and nothing is pending exactly when the path ends in it. -/
structure Represented (path : Path) : Prop where
  frozen : ∀ hop ∈ path.hops, hop.Frozen
  terminalOnce : path.hops.countP (·.kind.isTerminal) ≤ 1
  terminalLast : ∀ before hop behind, path.hops = before ++ hop :: behind →
    hop.kind = .terminal → behind = []
  closed : path.isClosed = true ↔ path.isWellFormed = true

/-- If no hop but the last is terminal, the terminal hop occurs at most once. -/
theorem countP_isTerminal_le_one {hops : List Hop}
    (terminalLast : ∀ hop ∈ hops.dropLast, hop.kind.isTerminal = false) :
    hops.countP (·.kind.isTerminal) ≤ 1 := by
  rcases List.eq_nil_or_concat hops with rfl | ⟨before, last, rfl⟩
  · exact Nat.zero_le 1
  · rw [List.concat_eq_append, List.dropLast_concat] at terminalLast
    have none : before.countP (·.kind.isTerminal) = 0 := by
      rw [List.countP_eq_zero]
      exact fun hop member => by simp [terminalLast hop member]
    rw [List.concat_eq_append, List.countP_append, none, Nat.zero_add]
    exact List.countP_le_length

theorem sound_iff_represented {path : Path} : path.Sound ↔ path.Represented := by
  constructor
  · intro sound
    refine ⟨fun hop member => Hop.frozen_iff_committed.mpr (sound.committed hop member),
      countP_isTerminal_le_one sound.terminalLast, ?_, by rw [sound.closed_eq]⟩
    intro before hop behind split isTerminal
    by_contra followed
    have early : hop ∈ path.hops.dropLast := by
      rw [split, List.dropLast_append_of_ne_nil (List.cons_ne_nil hop behind),
        List.dropLast_cons_of_ne_nil followed]
      exact List.mem_append_right _ List.mem_cons_self
    have other := sound.terminalLast hop early
    rw [isTerminal] at other
    cases other
  · intro represented
    refine ⟨fun hop member => Hop.frozen_iff_committed.mp (represented.frozen hop member),
      fun hop member => ?_, Bool.eq_iff_iff.mpr represented.closed⟩
    -- A hop before the last has something behind it.
    obtain ⟨before, behind, split⟩ := List.append_of_mem member
    rcases List.eq_nil_or_concat path.hops with none | ⟨others, last, whole⟩
    · rw [none] at member
      cases member
    · rw [whole, List.concat_eq_append, List.dropLast_concat] at split
      have inPath : path.hops = before ++ hop :: (behind ++ [last]) := by
        rw [whole, List.concat_eq_append, split, List.append_assoc, List.cons_append]
      have followed : behind ++ [last] ≠ [] :=
        List.append_ne_nil_of_right_ne_nil behind (List.cons_ne_nil last [])
      have notTerminal : hop.kind ≠ .terminal :=
        fun isTerminal => followed (represented.terminalLast _ _ _ inPath isTerminal)
      exact beq_eq_false_iff_ne.mpr notTerminal

/-- Storing and loading gives a sound path with nothing entered, and entering what was pending gives
the path itself. -/
theorem Sound.reachable {path : Path} (sound : path.Sound) : path.Reachable := by
  have settled : path.settle.Reachable := .load sound.load_toJson
  cases pending : path.pending with
  | none =>
    have unchanged : path.settle = path := by
      rw [settle, pending]
      exact congrArg (Path.mk path.hops) pending.symm
    exact unchanged ▸ settled
  | some hop =>
    have entered : path.settle.edit (fun _ => hop) = path := by
      rw [Path.edit, settle, pending]
      exact congrArg (Path.mk path.hops) pending.symm
    exact entered ▸ .edit (fun _ => hop) settled

/-- **The paths that editing and loading can give are those that are represented so.** -/
theorem reachable_iff_represented (path : Path) : path.Reachable ↔ path.Represented :=
  ⟨fun reachable => sound_iff_represented.mp reachable.sound,
    fun represented => (sound_iff_represented.mpr represented).reachable⟩

end Path

end IvrFlow
