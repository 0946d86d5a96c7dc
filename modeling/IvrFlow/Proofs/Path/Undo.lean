import IvrFlow.Proofs.Path.RoundTrip
import Mathlib.Logic.Function.Iterate

/-!
Taking hops back. Popping undoes a commit, also the one that has closed the path, and committing what
was popped redoes it. So after as many pops as there have been commits the committed hops are as
before, whatever was entered meanwhile (`pops_undo_commits`).
-/

namespace IvrFlow.Path

/-! ### Pops -/

theorem pop_eq {path : Path} {before : List Hop} {last : Hop} (split : path.hops = before ++ [last]) :
    path.pop = ⟨before, some last.reopen⟩ := by
  rw [pop, split, List.getLast?_concat, List.dropLast_concat]

/-- Popping a hop and all that come behind it leaves the hop to be edited. -/
theorem iterate_pop {path : Path} {before behind : List Hop} {hop : Hop}
    (split : path.hops = before ++ hop :: behind) :
    pop^[(hop :: behind).length] path = ⟨before, some hop.reopen⟩ := by
  -- The first pop takes the last hop, so the induction is from the end.
  induction behind using List.reverseRecOn generalizing path with
  | nil => exact pop_eq split
  | append_singleton behind last ih =>
    have popped : path.pop = ⟨before ++ hop :: behind, some last.reopen⟩ := by
      refine pop_eq ?_
      rw [split, List.append_assoc, List.cons_append]
    have counted : (hop :: (behind ++ [last])).length = (hop :: behind).length + 1 := by
      rw [List.length_cons, List.length_cons, List.length_append, List.length_singleton]
    rw [counted, Function.iterate_succ_apply, popped]
    exact ih rfl

theorem iterate_pop_of_le {path : Path} {count : Nat} (positive : 1 ≤ count)
    (within : count ≤ path.hops.length) :
    ∃ hop, path.hops[path.hops.length - count]? = some hop ∧
      pop^[count] path = ⟨path.hops.take (path.hops.length - count), some hop.reopen⟩ := by
  have inRange : path.hops.length - count < path.hops.length := by omega
  have split : path.hops = path.hops.take (path.hops.length - count) ++
      path.hops[path.hops.length - count] :: path.hops.drop (path.hops.length - count + 1) := by
    rw [← List.drop_eq_getElem_cons inRange, List.take_append_drop]
  have counted : (path.hops[path.hops.length - count] ::
      path.hops.drop (path.hops.length - count + 1)).length = count := by
    rw [List.length_cons, List.length_drop]
    omega
  have popped := iterate_pop split
  rw [counted] at popped
  exact ⟨_, List.getElem?_eq_getElem inRange, popped⟩

/-- What is popped can be committed again. -/
theorem Sound.add_pop {path : Path} (sound : path.Sound) (nonempty : path.hops ≠ []) :
    path.pop.add = .ok path.settle := by
  rcases List.eq_nil_or_concat path.hops with isEmpty | ⟨before, last, split⟩
  · exact absurd isEmpty nonempty
  · rw [List.concat_eq_append] at split
    have isLast : last ∈ path.hops := by
      rw [split]
      exact List.mem_append_right before (List.mem_singleton_self last)
    rw [pop_eq split, sound.settle_eq, split]
    exact add_of_commit (last.commit_reopen.trans (sound.committed last isLast))

/-! ### Commits -/

/-- A number of commits one after another, each by adding or by finishing, and between them any
changes of the hop that is pending. -/
inductive Commits : Nat → Path → Path → Prop where
  | none (path : Path) : Commits 0 path path
  | edit {count : Nat} {path between : Path} (change : Hop → Hop) :
      Commits count path between → Commits count path (between.edit change)
  | add {count : Nat} {path between result : Path} :
      Commits count path between → between.add = .ok result → Commits (count + 1) path result
  | finish {count : Nat} {path between result : Path} :
      Commits count path between → between.finish = .ok result → Commits (count + 1) path result

/-- Each commit puts one hop behind the others. -/
theorem Commits.exists_hops {count : Nat} {path result : Path}
    (commits : Commits count path result) :
    ∃ added : List Hop, added.length = count ∧ result.hops = path.hops ++ added := by
  have step {count : Nat} {path between result : Path} (added : between.add = .ok result)
      (before : ∃ added : List Hop, added.length = count ∧ between.hops = path.hops ++ added) :
      ∃ added : List Hop, added.length = count + 1 ∧ result.hops = path.hops ++ added := by
    obtain ⟨earlier, rfl, split⟩ := before
    obtain ⟨_, hop, _, _, rfl⟩ := add_cases added
    refine ⟨earlier ++ [hop], List.length_append, ?_⟩
    rw [resting, split, List.append_assoc]
  induction commits with
  | none path => exact ⟨[], rfl, (List.append_nil path.hops).symm⟩
  | edit change _ ih => exact ih
  | add _ added ih => exact step added ih
  | finish _ finished ih => exact step (add_of_finish finished) ih

theorem Commits.iterate_pop {count : Nat} {path result : Path}
    (commits : Commits count path result) (positive : 1 ≤ count) :
    ∃ hop, result.hops[path.hops.length]? = some hop ∧
      pop^[count] result = ⟨path.hops, some hop.reopen⟩ := by
  obtain ⟨added, rfl, split⟩ := commits.exists_hops
  cases added with
  | nil => cases positive
  | cons hop behind =>
    refine ⟨hop, ?_, Path.iterate_pop split⟩
    rw [split, List.getElem?_append_right (Nat.le_refl _), Nat.sub_self, List.getElem?_cons_zero]

/-- **Pops undo commits, and commits redo pops.** A number of pops leaves the hops before those that
are popped, and the first of these to be edited, no longer fixed and without its notation. Committing
what one pop has taken back gives the path again, with a fresh hop to edit if it is open. A number of
commits and as many pops leave the committed hops, and their notation, as they were. -/
theorem pops_undo_commits {path : Path} (reachable : path.Reachable) :
    (∀ count, 1 ≤ count → count ≤ path.hops.length →
        ∃ hop, path.hops[path.hops.length - count]? = some hop ∧
          pop^[count] path = ⟨path.hops.take (path.hops.length - count),
            some { hop with fixed := false, rendered := none }⟩) ∧
      (path.hops ≠ [] → ∃ redone, path.pop.add = .ok redone ∧ redone.hops = path.hops ∧
        (path.isClosed = true → redone = path) ∧
        (path.isClosed = false → redone = { path with pending := some .template })) ∧
      ∀ count result, 1 ≤ count → Commits count path result →
        ∃ hop, result.hops[path.hops.length]? = some hop ∧
          pop^[count] result =
            ⟨path.hops, some { hop with fixed := false, rendered := none }⟩ ∧
          (pop^[count] result).expression = path.expression := by
  refine ⟨fun _ => iterate_pop_of_le, fun nonempty => ?_, fun count result positive commits => ?_⟩
  · exact ⟨path.settle, reachable.sound.add_pop nonempty, rfl, settle_of_isClosed, settle_of_isOpen⟩
  · obtain ⟨hop, isFirst, popped⟩ := commits.iterate_pop positive
    refine ⟨hop, isFirst, popped, ?_⟩
    rw [popped]
    rfl

/-- The draft with its hop committed, and then closed. -/
def finishedDraft : Path :=
  resting [.committedProperty "items", .committedIndex 4, .committedValue]

/-- Two commits close the draft. Taking them back gives the draft, and taking one back and committing
it again the closed path. -/
theorem pops_undo_commits_draft :
    pop^[2] finishedDraft = draft ∧ finishedDraft.pop.add = .ok finishedDraft := by
  have added : Commits 1 draft (resting [.committedProperty "items", .committedIndex 4]) :=
    .add (.none draft) rfl
  have finished : Commits 2 draft finishedDraft := .finish (.edit (fun _ => .toValue) added) rfl
  have reachable : finishedDraft.Reachable := by
    have grown : Reachable (resting [.committedProperty "items", .committedIndex 4]) :=
      .add reachable_draft rfl
    exact .finish (.edit (fun _ => .toValue) grown) rfl
  obtain ⟨_, _, undone⟩ := pops_undo_commits reachable_draft
  obtain ⟨_, redone, _⟩ := pops_undo_commits reachable
  constructor
  · obtain ⟨hop, isHop, popped, _⟩ := undone 2 finishedDraft (by decide) finished
    cases isHop
    exact popped
  · obtain ⟨path, added, _, closed, _⟩ := redone (List.cons_ne_nil _ _)
    rw [added, closed rfl]

end IvrFlow.Path
