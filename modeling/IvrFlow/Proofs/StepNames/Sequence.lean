import IvrFlow.Proofs.StepNames
import IvrFlow.StepNames.Call
import Mathlib.Data.List.Nodup

/-!
The sequence of names that calls in a row issue. A call either draws the next name or leaves the
counter as it is (`Call.run_eq_answered`). So the numbers of the names that a run issues follow each
other without a gap, from the counter on, whatever calls are refused in between
(`issued_in_sequence`).
-/

namespace IvrFlow.StepNames

/-! ### One call -/

theorem run_map {α β : Type} (f : α → β) (change : Change α) (names : StepNames) :
    (f <$> change).run.run names =
      match change.run.run names with
      | (.ok drawn, after) => (.ok (f drawn), after)
      | (.error error, after) => (.error error, after) := by
  unfold ExceptT.run StateT.run
  simp only [Functor.map, ExceptT.map, ExceptT.mk, bind, StateT.bind]
  cases change names with
  | mk answer after => cases answer <;> rfl

/-- The answer to a draw, and the counter then. A draw that fails leaves the counter. -/
def answered {α : Type} (names : StepNames) :
    Except StepError (α × StepNames) → Except StepError α × StepNames
  | .ok (drawn, after) => (.ok drawn, after)
  | .error error => (.error error, names)

theorem run_nextInPlace (names : StepNames) :
    nextInPlace.run.run names = names.answered names.next := by
  have inPlace : nextInPlace.run.run names =
      if names.left = 0 then (.error (.namesExhausted names.last), names)
      else (.ok (nameOf (names.last + 1)), ⟨names.last + 1⟩) := by
    unfold nextInPlace
    show StateT.run (ExceptT.run (if names.left = 0 then _ else _)) names = _
    split
    · rfl
    · rfl
  rw [inPlace, next]
  split
  · rfl
  · rfl

theorem run_createInPlace (vocabulary : Vocabulary) (word : String) (names : StepNames) :
    (createInPlace vocabulary word).run.run names =
      names.answered (names.create vocabulary word) := by
  rw [createInPlace, create]
  cases vocabulary.kindOf word with
  | error error => rfl
  | ok kind =>
    show (Step.new kind <$> nextInPlace).run.run names = _
    rw [run_map, run_nextInPlace]
    cases names.next <;> rfl

namespace Call

/-- What a call draws. -/
def draw (names : StepNames) : Call → Except StepError (Issue × StepNames)
  | .next => names.next.map fun drawn => (.name drawn.1, drawn.2)
  | .create vocabulary word =>
    (names.create vocabulary word).map fun drawn => (.step drawn.1, drawn.2)

/-- **A call draws, or changes nothing.** -/
theorem run_eq_answered (call : Call) (names : StepNames) :
    call.run names = names.answered (call.draw names) := by
  cases call with
  | next =>
    rw [run, change, run_map, run_nextInPlace, draw]
    cases names.next <;> rfl
  | create vocabulary word =>
    rw [run, change, run_map, run_createInPlace, draw]
    cases names.create vocabulary word <;> rfl

/-- A call that is to create a step has a word that stands for a kind. -/
def Known : Call → Prop
  | .next => True
  | .create vocabulary word => (vocabulary.kindOf? word).isSome

section

variable {call : Call} {names : StepNames}

theorem run_of_unknown {vocabulary : Vocabulary} {word : String}
    (unknown : vocabulary.kindOf? word = none) :
    (create vocabulary word).run names = (.error (.unknownKind word), names) := by
  rw [run_eq_answered, draw, StepNames.create, Vocabulary.kindOf, unknown]
  rfl

theorem run_of_none_left (known : call.Known) (none : names.left = 0) :
    call.run names = (.error (.namesExhausted names.last), names) := by
  rw [run_eq_answered]
  cases call with
  | next =>
    rw [draw, next_eq_error none]
    rfl
  | create vocabulary word =>
    obtain ⟨kind, isKind⟩ := Option.isSome_iff_exists.mp known
    rw [draw, StepNames.create, Vocabulary.kindOf, isKind]
    show names.answered ((names.next.bind _).map _) = _
    rw [next_eq_error none]
    rfl

theorem exists_run_eq_ok (known : call.Known) (some : names.left ≠ 0) :
    ∃ issue, call.run names = (.ok issue, ⟨names.last + 1⟩) ∧
      issue.named = nameOf (names.last + 1) := by
  rw [run_eq_answered]
  cases call with
  | next =>
    refine ⟨.name (nameOf (names.last + 1)), ?_, rfl⟩
    rw [draw, next_eq_ok some]
    rfl
  | create vocabulary word =>
    obtain ⟨kind, isKind⟩ := Option.isSome_iff_exists.mp known
    refine ⟨.step (.new kind (nameOf (names.last + 1))), ?_, ?_⟩
    · rw [draw, StepNames.create, Vocabulary.kindOf, isKind]
      show names.answered ((names.next.bind _).map _) = _
      rw [next_eq_ok some]
      rfl
    · exact congrArg Header.name (Step.header_new kind _)

/-- A call is refused, and leaves the counter; or it moves the counter on by one, and the name that it
issues has the number of the counter then. -/
theorem run_cases (call : Call) (names : StepNames) :
    (∃ error, call.run names = (.error error, names)) ∨
      ∃ issue, call.run names = (.ok issue, ⟨names.last + 1⟩) ∧
        issue.named = nameOf (names.last + 1) ∧ names.left ≠ 0 := by
  by_cases known : call.Known
  · by_cases none : names.left = 0
    · exact Or.inl ⟨_, run_of_none_left known none⟩
    · obtain ⟨issue, ran, named⟩ := exists_run_eq_ok known none
      exact Or.inr ⟨issue, ran, named, none⟩
  · cases call with
    | next => exact absurd trivial known
    | create vocabulary word =>
      exact Or.inl ⟨_, run_of_unknown (Option.not_isSome_iff_eq_none.mp known)⟩

end

end Call

/-! ### Calls in a row -/

/-- The names with as many numbers in a row, from the one after a number on. -/
def inSequence (last count : Nat) : List String :=
  (List.range' (last + 1) count).map fun number => "step" ++ toString number

/-- **A run leaves no gap.** The calls that are refused do not count. -/
theorem issued_eq_inSequence (names : StepNames) (calls : List Call) :
    names.issued calls = inSequence names.last.toNat (names.issued calls).length ∧
      (names.after calls).last.toNat = names.last.toNat + (names.issued calls).length := by
  induction calls generalizing names with
  | nil => exact ⟨rfl, rfl⟩
  | cons call rest ih =>
    have unfolded : names.after (call :: rest) = (call.run names).2.after rest := rfl
    rcases call.run_cases names with ⟨error, refused⟩ | ⟨issue, drawn, named, some⟩
    · rw [unfolded, issued, refused]
      exact ih names
    · obtain ⟨sequence, last⟩ := ih ⟨names.last + 1⟩
      have issues : names.issued (call :: rest) =
          issue.named :: StepNames.issued ⟨names.last + 1⟩ rest := by
        rw [issued, drawn]
        rfl
      have first : issue.named = "step" ++ toString (names.last.toNat + 1) := by
        rw [named, nameOf, toNat_last_succ some]
      rw [toNat_last_succ some] at sequence last
      rw [unfolded, issues, drawn, List.length_cons]
      refine ⟨?_, last.trans (by omega)⟩
      rw [inSequence, List.range'_succ, List.map_cons, ← first, ← inSequence, ← sequence]

theorem nodup_inSequence (last count : Nat) : (inSequence last count).Nodup :=
  List.Nodup.map step_toString_injective List.nodup_range'

theorem step_zero_notMem_inSequence (last count : Nat) : "step0" ∉ inSequence last count := by
  intro isThere
  obtain ⟨number, inRange, isZero⟩ := List.mem_map.mp isThere
  have zero : number = 0 := step_toString_injective isZero
  have bound := List.mem_range'_1.mp inRange
  omega

/-- **Names are issued in sequence.** Whatever a run of calls is, the names that it issues have the
numbers from the counter on, without a gap, and are all different; none has the number zero. At the
end of the run a call that is answered has the next number, which the counter then has too, and a
call that is refused leaves the counter. A word that stands for no kind is always refused. Any other
call is answered as long as the counter is not at its greatest number, and from then on refused. -/
theorem issued_in_sequence (names : StepNames) (calls : List Call) :
    let count := (names.issued calls).length
    let now := names.after calls
    (names.issued calls =
        (List.range' (names.last.toNat + 1) count).map fun number => "step" ++ toString number) ∧
      (names.issued calls).Nodup ∧ "step0" ∉ names.issued calls ∧
      now.last.toNat = names.last.toNat + count ∧
      (∀ (call : Call) (issue : Issue) (after : StepNames), call.run now = (.ok issue, after) →
        issue.named = "step" ++ toString (names.last.toNat + count + 1) ∧
          after.last.toNat = names.last.toNat + count + 1) ∧
      (∀ (call : Call) (error : StepError) (after : StepNames),
        call.run now = (.error error, after) → after = now) ∧
      (∀ (vocabulary : Vocabulary) (word : String), vocabulary.kindOf? word = none →
        (Call.create vocabulary word).run now = (.error (.unknownKind word), now)) ∧
      ∀ call : Call, call.Known →
        (now.last = greatest → call.run now = (.error (.namesExhausted greatest), now)) ∧
        (now.last ≠ greatest → ∃ issue after, call.run now = (.ok issue, after)) := by
  intro count now
  obtain ⟨sequence, last⟩ := issued_eq_inSequence names calls
  refine ⟨sequence, ?_, ?_, last, ?_, ?_, ?_, ?_⟩
  · rw [sequence]
    exact nodup_inSequence _ _
  · rw [sequence]
    exact step_zero_notMem_inSequence _ _
  · intro call issue after ran
    rcases call.run_cases now with ⟨error, refused⟩ | ⟨drawn, answered, named, some⟩
    · cases refused.symm.trans ran
    · cases answered.symm.trans ran
      rw [named, nameOf, toNat_last_succ some, last]
      exact ⟨rfl, rfl⟩
  · intro call error after ran
    rcases call.run_cases now with ⟨error', refused⟩ | ⟨drawn, answered, _, _⟩
    · cases refused.symm.trans ran
      rfl
    · cases answered.symm.trans ran
  · exact fun vocabulary word unknown => Call.run_of_unknown unknown
  · intro call known
    refine ⟨fun spent => ?_, fun left => ?_⟩
    · have none : now.left = 0 := by
        rw [left, spent]
        rfl
      rw [Call.run_of_none_left known none, spent]
    · obtain ⟨issue, ran, _⟩ := Call.exists_run_eq_ok known (mt last_eq_greatest left)
      exact ⟨issue, _, ran⟩

/-- The end of the numbers: two names are left, of which a call with an alias draws the second. -/
theorem issued_in_sequence_spent :
    let names : StepNames := ⟨18446744073709551613⟩
    let vocabulary := Vocabulary.standard.addAlias "voice" .say
    let calls : List Call :=
      [.next, .create vocabulary "fax", .create vocabulary "voice", .next, .create vocabulary "gather"]
    names.issued calls = ["step18446744073709551614", "step18446744073709551615"] ∧
      (names.after calls).last = greatest ∧
      Call.next.run (names.after calls) =
        (.error (.namesExhausted greatest), names.after calls) := by
  intro names vocabulary calls
  have count : (names.issued calls).length = 2 := by decide +kernel
  have last : (names.after calls).last = greatest := by decide +kernel
  obtain ⟨sequence, _, _, _, _, _, _, known⟩ := issued_in_sequence names calls
  rw [count] at sequence
  exact ⟨sequence.trans (by decide +kernel), last, (known .next trivial).1 last⟩

end IvrFlow.StepNames
