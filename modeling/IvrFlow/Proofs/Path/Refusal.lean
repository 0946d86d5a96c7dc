import IvrFlow.Path.Edit
import IvrFlow.Proofs.Path.RoundTrip

/-!
Calls that are refused. A call changes a path in place, but either makes its whole change or none
(`run_eq_atOnce`). So a refused call leaves the path as it was, with all that is entered on it;
finishing a path is adding the terminal hop; and a closed path stays closed until a hop is taken back
(`refused_changes_nothing`).
-/

namespace IvrFlow.Path

/-! ### Whole changes -/

/-- The answer to a change that is either made as a whole or refused, and the path then. -/
def atOnce (path : Path) : Except PathError Path → Except PathError Unit × Path
  | .ok changed => (.ok (), changed)
  | .error error => (.error error, path)

theorem atOnce_eq_ok_iff {path after : Path} {changed : Except PathError Path} :
    path.atOnce changed = (.ok (), after) ↔ changed = .ok after := by
  cases changed with
  | ok other => simp only [atOnce, Prod.mk.injEq, true_and, Except.ok.injEq]
  | error error => simp only [atOnce, Prod.mk.injEq, reduceCtorEq, false_and]

theorem atOnce_eq_error_iff {path after : Path} {changed : Except PathError Path}
    {error : PathError} :
    path.atOnce changed = (.error error, after) ↔ changed = .error error ∧ after = path := by
  cases changed with
  | ok other => simp only [atOnce, Prod.mk.injEq, reduceCtorEq, false_and]
  | error other =>
    simp only [atOnce, Prod.mk.injEq, Except.error.injEq]
    exact and_congr_right fun _ => eq_comm

namespace Call

/-- What a call makes of a path, or why it is refused. -/
def outcome (path : Path) : Call → Except PathError Path
  | .add => path.add
  | .finish => path.finish
  | .pop => .ok path.pop
  | .edit change => .ok (path.edit change)

/-- Whether a hop can be committed is known before the path is touched. -/
theorem run_commitInPlace (path : Path) (hop : Hop) :
    (commitInPlace hop).run.run path = path.atOnce (do
      let committed ← hop.commit
      return ⟨path.hops ++ [committed],
        if committed.kind.isTerminal then none else some .template⟩) := by
  rw [commitInPlace]
  cases hop.commit <;> rfl

theorem run_add (path : Path) : add.run path = path.atOnce path.add := by
  obtain ⟨hops, pending⟩ := path
  cases pending with
  | none => rfl
  | some hop => exact run_commitInPlace ⟨hops, some hop⟩ hop

theorem run_finish (path : Path) : finish.run path = path.atOnce path.finish := by
  obtain ⟨hops, pending⟩ := path
  cases pending with
  | none => rfl
  | some hop =>
    obtain ⟨kind, fixed, property, position, rendered⟩ := hop
    cases kind with
    | terminal => exact run_add ⟨hops, some ⟨.terminal, fixed, property, position, rendered⟩⟩
    | property | index => rfl

/-- **A call either makes its whole change or none.** -/
theorem run_eq_atOnce (call : Call) (path : Path) :
    call.run path = path.atOnce (call.outcome path) := by
  cases call with
  | add => exact run_add path
  | finish => exact run_finish path
  | pop | edit change => rfl

theorem run_eq_ok_iff {call : Call} {path after : Path} :
    call.run path = (.ok (), after) ↔ call.outcome path = .ok after := by
  rw [run_eq_atOnce, atOnce_eq_ok_iff]

theorem run_eq_error_iff {call : Call} {path after : Path} {error : PathError} :
    call.run path = (.error error, after) ↔ call.outcome path = .error error ∧ after = path := by
  rw [run_eq_atOnce, atOnce_eq_error_iff]

end Call

/-! ### Sessions -/

/-- A call leads to a path that can be had, whether it is refused or not. -/
theorem Reachable.run {path : Path} (reachable : path.Reachable) (call : Call) :
    (call.run path).2.Reachable := by
  rw [call.run_eq_atOnce]
  cases outcome : call.outcome path with
  | error error => exact reachable
  | ok result =>
    cases call with
    | add => exact .add reachable outcome
    | finish => exact .finish reachable outcome
    | pop =>
      cases outcome
      exact .pop reachable
    | edit change =>
      cases outcome
      exact .edit change reachable

theorem Reachable.after {path : Path} (reachable : path.Reachable) (calls : List Call) :
    (path.after calls).Reachable := by
  induction calls generalizing path with
  | nil => exact reachable
  | cons call rest ih => exact ih (reachable.run call)

/-! ### Closed paths -/

theorem edit_of_isClosed {path : Path} (closed : path.isClosed = true) (change : Hop → Hop) :
    path.edit change = path := by
  rw [isClosed, Option.isNone_iff_eq_none] at closed
  rw [edit, closed]
  exact congrArg (mk path.hops) closed.symm

/-- No call but a pop changes a closed path. -/
theorem Call.run_of_isClosed {path : Path} (closed : path.isClosed = true) {call : Call}
    (noPop : call ≠ .pop) : (call.run path).2 = path := by
  have pending : path.pending = none := Option.isNone_iff_eq_none.mp closed
  rw [run_eq_atOnce]
  cases call with
  | add => simp only [outcome, Path.add, pending, atOnce]
  | finish => simp only [outcome, Path.finish, pending, atOnce]
  | pop => exact absurd rfl noPop
  | edit change => exact edit_of_isClosed closed change

theorem after_of_isClosed {path : Path} (closed : path.isClosed = true) {calls : List Call}
    (noPop : Call.pop ∉ calls) : path.after calls = path := by
  induction calls with
  | nil => rfl
  | cons call rest ih =>
    obtain ⟨first, others⟩ := not_or.mp (List.mem_cons.not.mp noPop)
    rw [after, List.foldl_cons, Call.run_of_isClosed closed (Ne.symm first)]
    exact ih others

/-- A closed path ends in the terminal hop, which a pop makes pending. -/
theorem Sound.isOpen_pop {path : Path} (sound : path.Sound) (closed : path.isClosed = true) :
    path.pop.isClosed = false := by
  have ended : path.hops.getLast?.any (·.kind.isTerminal) = true := sound.closed_eq.symm.trans closed
  unfold Path.pop
  cases last : path.hops.getLast? with
  | none =>
    rw [last] at ended
    cases ended
  | some hop => rfl

/-! ### Finishing -/

theorem finish_of_terminal {path : Path} {hop : Hop} (pending : path.pending = some hop)
    (terminal : hop.kind = .terminal) : path.finish = path.add := by
  simp only [finish, pending, terminal]
  rfl

theorem add_of_terminal {path : Path} {hop : Hop} (pending : path.pending = some hop)
    (terminal : hop.kind = .terminal) :
    path.add = .ok ⟨path.hops ++ [.committedValue], none⟩ := by
  simp only [add, pending, Hop.commit_terminal terminal]
  rfl

theorem finish_of_ne_terminal {path : Path} {hop : Hop} (pending : path.pending = some hop)
    (other : hop.kind ≠ .terminal) : path.finish = .error .unterminated := by
  have notTerminal : ¬ hop.kind.isTerminal = true := fun isTerminal => other (eq_of_beq isTerminal)
  simp only [finish, pending, if_neg notTerminal]

/-- A path can be finished exactly when the terminal hop is pending. -/
theorem exists_finish_eq_ok_iff {path : Path} :
    (∃ result, path.finish = .ok result) ↔ ∃ hop, path.pending = some hop ∧ hop.kind = .terminal := by
  constructor
  · rintro ⟨result, finished⟩
    cases pending : path.pending with
    | none => simp only [finish, pending, reduceCtorEq] at finished
    | some hop =>
      by_cases terminal : hop.kind = .terminal
      · exact ⟨hop, rfl, terminal⟩
      · rw [finish_of_ne_terminal pending terminal] at finished
        cases finished
  · rintro ⟨hop, pending, terminal⟩
    exact ⟨_, (finish_of_terminal pending terminal).trans (add_of_terminal pending terminal)⟩

/-- **Refused calls change nothing, and finishing is adding the terminal hop.** This holds of every
path that can be had, and every session leads to such a path again. A path can be finished exactly
when the terminal hop is pending; then this adds the hop, and closes the path. Any other hop is
refused for its kind, whatever it lacks. On a closed path nothing can be added or finished, in any
session, before a hop is taken back. -/
theorem refused_changes_nothing {path : Path} (reachable : path.Reachable) :
    (∀ call error result, Call.run call path = (.error error, result) → result = path) ∧
      (∀ calls, (path.after calls).Reachable) ∧
      ((∃ result, Call.finish.run path = (.ok (), result)) ↔
        ∃ hop, path.pending = some hop ∧ hop.kind = .terminal) ∧
      (∀ result, Call.finish.run path = (.ok (), result) →
        Call.add.run path = (.ok (), result) ∧ result.isClosed = true) ∧
      (∀ hop, path.pending = some hop → hop.kind ≠ .terminal →
        Call.finish.run path = (.error .unterminated, path)) ∧
      (path.isClosed = true →
        (∀ calls, Call.pop ∉ calls →
          Call.add.run (path.after calls) = (.error .closed, path) ∧
            Call.finish.run (path.after calls) = (.error .closed, path)) ∧
          path.pop.isClosed = false) := by
  refine ⟨fun call error result refused => (Call.run_eq_error_iff.mp refused).2, reachable.after,
    ?_, fun result answered => ?_, fun hop pending other => ?_, fun closed => ⟨?_, ?_⟩⟩
  · simp only [Call.run_eq_ok_iff]
    exact exists_finish_eq_ok_iff
  · have finished : path.finish = .ok result := Call.run_eq_ok_iff.mp answered
    obtain ⟨hop, pending, terminal⟩ := exists_finish_eq_ok_iff.mp ⟨result, finished⟩
    have added : path.add = .ok result := add_of_finish finished
    refine ⟨Call.run_eq_ok_iff.mpr added, ?_⟩
    cases added.symm.trans (add_of_terminal pending terminal)
    rfl
  · exact Call.run_eq_error_iff.mpr ⟨finish_of_ne_terminal pending other, rfl⟩
  · intro calls noPop
    have pending : path.pending = none := Option.isNone_iff_eq_none.mp closed
    rw [after_of_isClosed closed noPop]
    constructor
    · exact Call.run_eq_error_iff.mpr ⟨by simp only [Call.outcome, add, pending], rfl⟩
    · exact Call.run_eq_error_iff.mpr ⟨by simp only [Call.outcome, finish, pending], rfl⟩
  · exact reachable.sound.isOpen_pop closed

/-- The path to the value that is given itself. -/
def ended : Path := resting [.committedValue]

/-- The draft cannot be finished with an index pending. On the closed path nothing can be entered or
added, but the terminal hop can be taken back. -/
theorem refused_changes_nothing_ended :
    Call.finish.run draft = (.error .unterminated, draft) ∧
      Call.add.run (ended.after [.edit fun _ => .toIndex 4, .finish]) = (.error .closed, ended) ∧
      ended.pop.isClosed = false := by
  have reachable : ended.Reachable := .finish (.edit (fun _ => .toValue) .empty) rfl
  obtain ⟨_, _, _, _, unterminated, _⟩ := refused_changes_nothing reachable_draft
  obtain ⟨_, _, _, _, _, closed⟩ := refused_changes_nothing reachable
  obtain ⟨refused, reopened⟩ := closed rfl
  refine ⟨unterminated _ rfl (by decide), (refused _ ?_).1, reopened⟩
  simp only [List.mem_cons, List.not_mem_nil, reduceCtorEq, or_false, not_false_eq_true]

end IvrFlow.Path
