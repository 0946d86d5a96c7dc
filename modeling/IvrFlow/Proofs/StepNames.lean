import IvrFlow.Flow.Edit

/-!
Drawing names for new steps. `drawFree` passes over the names that are taken and stops at the first
that is not (`drawFree_cases`). Given as many draws as there are names left, it fails only when all
of those are taken (`drawFree_left_cases`). Every draw moves the counter on, as long as a name is
left (`last_lt_drawFree`).
-/

namespace IvrFlow.StepNames

/-! ### The counter -/

theorem nameOf_ne_empty (number : UInt64) : nameOf number ≠ "" := by
  intro isEmpty
  have short : (nameOf number).length = 0 := by rw [isEmpty]; rfl
  have long : (nameOf number).length = 4 + (toString number.toNat).length := by
    rw [nameOf, String.length_append]
    rfl
  omega

/-- Numbers are told apart by their names: the digits of a number give it back. -/
theorem step_toString_injective :
    Function.Injective fun number : Nat => "step" ++ toString number := by
  intro number other same
  have digits : (toString number).toList = (toString other).toList :=
    congrArg String.toList ((String.append_right_inj "step").mp same)
  calc number
      = Nat.ofDigitChars 10 (toString number).toList 0 := by simp
    _ = Nat.ofDigitChars 10 (toString other).toList 0 := by rw [digits]
    _ = other := by simp

theorem nameOf_injective : Function.Injective nameOf :=
  fun _ _ same => UInt64.toNat_inj.mp (step_toString_injective same)

theorem left_eq_zero_iff (names : StepNames) :
    names.left = 0 ↔ ∀ number, ¬ names.last < number := by
  simp only [left, UInt64.lt_iff_toNat_lt]
  constructor
  · intro none number
    have := number.toNat_lt
    simp only [UInt64.size] at none
    omega
  · intro greatest
    have := greatest 18446744073709551615
    have last : (18446744073709551615 : UInt64).toNat = UInt64.size - 1 := rfl
    omega

/-- The greatest number that a name can have. -/
def greatest : UInt64 := 18446744073709551615

theorem le_greatest (number : UInt64) : number ≤ greatest := by
  have bound := number.toNat_lt
  have last : greatest.toNat = 18446744073709551615 := rfl
  rw [UInt64.le_iff_toNat_le]
  omega

theorem last_eq_greatest {names : StepNames} (none : names.left = 0) : names.last = greatest := by
  have none' := (left_eq_zero_iff names).mp none greatest
  exact UInt64.le_antisymm (le_greatest _) (UInt64.not_lt.mp none')

theorem toNat_last_succ {names : StepNames} (some : names.left ≠ 0) :
    (names.last + 1).toNat = names.last.toNat + 1 := by
  have bound : names.last.toNat + 1 < 2 ^ 64 := by
    simp only [left, UInt64.size] at some
    omega
  rw [UInt64.toNat_add, UInt64.toNat_one, Nat.mod_eq_of_lt bound]

theorem next_eq_ok {names : StepNames} (some : names.left ≠ 0) :
    names.next = .ok (nameOf (names.last + 1), ⟨names.last + 1⟩) := by
  rw [next, if_neg some]

theorem next_eq_error {names : StepNames} (none : names.left = 0) :
    names.next = .error (.namesExhausted names.last) := by
  rw [next, if_pos none]

/-! ### Drawing a free name -/

/-- Drawing ends at the first name that is not taken, or without one when all that it saw are. Either
way the names that it passed over are taken. -/
theorem drawFree_cases (taken : List String) (draws : Nat) (names : StepNames) :
    (∃ error after, drawFree taken draws names = (.error error, after) ∧
        names.last ≤ after.last ∧
        ∀ number, names.last < number → number ≤ after.last → nameOf number ∈ taken) ∨
      ∃ after, drawFree taken draws names = (.ok (nameOf after.last), after) ∧
        names.last < after.last ∧ nameOf after.last ∉ taken ∧
        ∀ number, names.last < number → number < after.last → nameOf number ∈ taken := by
  simp only [UInt64.lt_iff_toNat_lt, UInt64.le_iff_toNat_le]
  induction draws generalizing names with
  | zero => exact Or.inl ⟨_, _, rfl, Nat.le_refl _, fun _ _ _ => by omega⟩
  | succ draws ih =>
    by_cases none : names.left = 0
    · refine Or.inl ⟨.namesExhausted names.last, names, ?_, Nat.le_refl _, fun _ _ _ => by omega⟩
      rw [drawFree, next_eq_error none]
    · have step : (StepNames.mk (names.last + 1)).last.toNat = names.last.toNat + 1 :=
        toNat_last_succ none
      by_cases isTaken : nameOf (names.last + 1) ∈ taken
      · -- The name that is passed over is taken, and so are those passed over afterwards.
        have onward : drawFree taken (draws + 1) names = drawFree taken draws ⟨names.last + 1⟩ := by
          rw [drawFree, next_eq_ok none]
          exact if_pos (List.contains_iff_mem.mpr isTaken)
        have first : ∀ number : UInt64, number.toNat = names.last.toNat + 1 →
            nameOf number ∈ taken := by
          intro number eq
          rwa [UInt64.toNat_inj.mp (eq.trans step.symm)]
        rw [onward]
        rcases ih ⟨names.last + 1⟩ with
          ⟨error, after, drawn, later, passed⟩ | ⟨after, drawn, later, fresh, passed⟩
        · refine Or.inl ⟨error, after, drawn, by omega, fun number above upTo => ?_⟩
          by_cases isFirst : number.toNat = names.last.toNat + 1
          · exact first number isFirst
          · exact passed number (by omega) upTo
        · refine Or.inr ⟨after, drawn, by omega, fresh, fun number above below => ?_⟩
          by_cases isFirst : number.toNat = names.last.toNat + 1
          · exact first number isFirst
          · exact passed number (by omega) below
      · refine Or.inr ⟨⟨names.last + 1⟩, ?_, by omega, isTaken, fun _ _ _ => by omega⟩
        rw [drawFree, next_eq_ok none]
        exact if_neg (mt List.contains_iff_mem.mp isTaken)

/-- Drawing with as many draws as there are names left does not stop before the names do. -/
theorem drawFree_left_eq_error {taken : List String} {names after : StepNames} {error : StepError}
    (drawn : drawFree taken names.left names = (.error error, after)) :
    error = .namesExhausted greatest ∧ after = ⟨greatest⟩ := by
  induction isLeft : names.left generalizing names with
  | zero =>
    have last := last_eq_greatest isLeft
    rw [isLeft, drawFree, last] at drawn
    cases drawn
    exact ⟨rfl, congrArg StepNames.mk last⟩
  | succ draws ih =>
    have some : names.left ≠ 0 := by omega
    have fewer : (StepNames.mk (names.last + 1)).left = draws := by
      have step := toNat_last_succ some
      simp only [left] at isLeft ⊢
      omega
    rw [isLeft, drawFree, next_eq_ok some] at drawn
    simp only at drawn
    split at drawn
    · rw [← fewer] at drawn
      exact ih drawn fewer
    · cases drawn

/-- Drawing with as many draws as there are names left. Either all those names are taken, or the name
that is drawn is the first that is not. -/
theorem drawFree_left_cases (taken : List String) (names : StepNames) :
    (drawFree taken names.left names = (.error (.namesExhausted greatest), ⟨greatest⟩) ∧
        ∀ number, names.last < number → nameOf number ∈ taken) ∨
      ∃ number, drawFree taken names.left names = (.ok (nameOf number), ⟨number⟩) ∧
        names.last < number ∧ nameOf number ∉ taken ∧
        ∀ earlier, names.last < earlier → earlier < number → nameOf earlier ∈ taken := by
  rcases drawFree_cases taken names.left names with
    ⟨error, after, drawn, _, passed⟩ | ⟨after, drawn, later, fresh, passed⟩
  · obtain ⟨rfl, rfl⟩ := drawFree_left_eq_error drawn
    exact Or.inl ⟨drawn, fun number above => passed number above (le_greatest number)⟩
  · exact Or.inr ⟨after.last, drawn, later, fresh, passed⟩

/-- As long as a name is left, drawing one moves the counter on. -/
theorem last_lt_drawFree (taken : List String) {names : StepNames} (some : names.left ≠ 0) :
    names.last < (drawFree taken names.left names).2.last := by
  obtain ⟨draws, eq⟩ := Nat.exists_eq_succ_of_ne_zero some
  have step : names.last < names.last + 1 := by
    rw [UInt64.lt_iff_toNat_lt, toNat_last_succ some]
    omega
  rw [eq, drawFree, next_eq_ok some]
  show names.last < (if taken.contains (nameOf (names.last + 1)) then
    drawFree taken draws ⟨names.last + 1⟩ else _).2.last
  split
  · have onward : names.last + 1 ≤ (drawFree taken draws ⟨names.last + 1⟩).2.last := by
      rcases drawFree_cases taken draws ⟨names.last + 1⟩ with
        ⟨_, after, drawn, later, _⟩ | ⟨after, drawn, later, _⟩
      · rw [drawn]
        exact later
      · rw [drawn]
        exact UInt64.le_of_lt later
    exact UInt64.lt_of_lt_of_le step onward
  · exact step

end IvrFlow.StepNames
