import IvrFlow.Proofs.Step.Loading

/-!
Words for kinds. Of the aliases that are added for a word the last one counts, and it counts before
the word of a kind. So an alias may take the word of a kind away from it, and then steps with that
word are loaded as steps of another kind. What that does to loading and to storing, for any sequence
of aliases, is in `words_of_aliases`.
-/

namespace IvrFlow

namespace Vocabulary

/-! ### Adding words -/

section Words

variable {vocabulary : Vocabulary}

/-- Adds words for kinds, one after the other. -/
def addAliases (calls : List (String × StepKind)) (vocabulary : Vocabulary) : Vocabulary :=
  calls.foldl (fun vocabulary call => vocabulary.addAlias call.1 call.2) vocabulary

theorem kindOf?_addAlias (word : String) (kind : StepKind) (other : String) :
    (vocabulary.addAlias word kind).kindOf? other =
      if other = word then some kind else vocabulary.kindOf? other := by
  rw [kindOf?, addAlias, List.lookup_cons]
  by_cases same : other = word
  · rw [if_pos same, beq_iff_eq.mpr same]
    rfl
  · rw [if_neg same, beq_eq_false_iff_ne.mpr same]
    rfl

/-- The last call for a word counts. -/
theorem kindOf?_addAliases (calls : List (String × StepKind)) (word : String) :
    (vocabulary.addAliases calls).kindOf? word =
      (calls.reverse.lookup word).or (vocabulary.kindOf? word) := by
  induction calls generalizing vocabulary with
  | nil => rfl
  | cons call rest ih =>
    show ((vocabulary.addAlias call.1 call.2).addAliases rest).kindOf? word = _
    rw [ih, kindOf?_addAlias, List.reverse_cons, List.lookup_append, Option.or_assoc]
    refine congrArg _ ?_
    rw [List.lookup_cons, List.lookup_nil]
    by_cases same : word = call.1
    · rw [if_pos same, beq_iff_eq.mpr same]
      rfl
    · rw [if_neg same, beq_eq_false_iff_ne.mpr same]
      rfl

/-- Aliases leave the words of the kinds alone if the last one for each such word is for its
kind. -/
theorem keepsWords_addAliases_iff (keeps : vocabulary.KeepsWords)
    (calls : List (String × StepKind)) :
    (vocabulary.addAliases calls).KeepsWords ↔
      ∀ own kind : StepKind, calls.reverse.lookup own.word = some kind → kind = own := by
  have stands (own : StepKind) : (vocabulary.addAliases calls).kindOf? own.word =
      (calls.reverse.lookup own.word).or (some own) := by
    rw [kindOf?_addAliases, keeps own]
  constructor
  · intro keepsToo own kind last
    have same := (stands own).symm.trans (keepsToo own)
    rw [last] at same
    exact Option.some.inj same
  · intro onlyOwn own
    rw [stands]
    cases last : calls.reverse.lookup own.word with
    | none => rfl
    | some kind => rw [onlyOwn own kind last, Option.some_or]

theorem kindOf_eq_ok_iff {word : String} {kind : StepKind} :
    vocabulary.kindOf word = .ok kind ↔ vocabulary.kindOf? word = some kind := by
  rw [kindOf]
  cases vocabulary.kindOf? word with
  | none => simp only [reduceCtorEq]
  | some other => simp only [Except.ok.injEq, Option.some.injEq]

theorem storedKind_eq_ok_iff {stored : Json} {kind : StepKind} :
    vocabulary.storedKind stored = .ok kind ↔
      ∃ word, stored.get? "kind" = some (.str word) ∧ vocabulary.kindOf? word = some kind := by
  rw [storedKind]
  constructor
  · intro isKind
    cases found : stored.get? "kind" with
    | none =>
      rw [found] at isKind
      cases isKind
    | some value =>
      rw [found] at isKind
      cases value with
      | str word => exact ⟨word, rfl, kindOf_eq_ok_iff.mp isKind⟩
      | null | bool | num | arr | obj => cases isKind
  · rintro ⟨word, found, stands⟩
    rw [found]
    exact kindOf_eq_ok_iff.mpr stands

end Words

end Vocabulary

/-! ### Kinds of loaded steps -/

namespace Step

section Loading

variable {vocabulary : Vocabulary}

theorem kind_of_loadOwn {entries : Fields} {kind : StepKind} {own : Step}
    (loaded : loadOwn vocabulary entries kind = .ok own) : own.kind = kind := by
  cases kind with
  | gather =>
    obtain ⟨header, digits, prompts, _, _, rfl⟩ := loadOwn_gather_eq_ok loaded
    rfl
  | dial | externalService =>
    obtain ⟨_, _, rest⟩ := bind_eq_ok_iff.mp loaded
    obtain ⟨_, _, isOwn⟩ := bind_eq_ok_iff.mp rest
    cases isOwn
    rfl
  | say | play | redirect | hangUp | reject | pause =>
    obtain ⟨_, _, isOwn⟩ := bind_eq_ok_iff.mp loaded
    cases isOwn
    rfl

/-- A loaded step is of the kind that its stored word stands for. -/
theorem storedKind_of_load {stored : Json} {step : Step}
    (loaded : load vocabulary stored = .ok step) :
    vocabulary.storedKind stored = .ok step.kind := by
  obtain ⟨entries, kind, own, rfl, isKind, loadedOwn, rfl⟩ := exists_own_of_load loaded
  rw [isKind, kind_normalize, kind_of_loadOwn loadedOwn]

/-- Whatever kind a word stands for, there is a stored step with the word that is loaded. -/
theorem exists_load_of_kindOf? {word : String} {kind : StepKind}
    (stands : vocabulary.kindOf? word = some kind) :
    ∃ stored step, stored.get? "kind" = some (.str word) ∧ load vocabulary stored = .ok step ∧
      step.kind = kind := by
  have isKind : vocabulary.storedKind (.obj [("kind", .str word)]) = .ok kind :=
    Vocabulary.storedKind_eq_ok_iff.mpr ⟨word, rfl, stands⟩
  refine ⟨.obj [("kind", .str word)], ?_⟩
  rw [load_obj isKind]
  cases kind <;> exact ⟨_, rfl, rfl, rfl⟩

/-- Where every word stands for a kind whose own word stands for it, so do the words in what is
loaded. -/
theorem spoken_of_load
    (closed : ∀ word kind, vocabulary.kindOf? word = some kind →
      vocabulary.kindOf? kind.word = some kind) {stored : Json} {step : Step}
    (loaded : load vocabulary stored = .ok step) : step.Spoken vocabulary := by
  induction stored using storedInduction generalizing step with
  | each stored ih =>
    obtain ⟨word, _, stands⟩ := Vocabulary.storedKind_eq_ok_iff.mp (storedKind_of_load loaded)
    have keeps := closed word step.kind stands
    obtain ⟨entries, kind, own, rfl, _, loadedOwn, rfl⟩ := exists_own_of_load loaded
    have isKind : own.kind = kind := kind_of_loadOwn loadedOwn
    cases own with
    | act header action => exact .act keeps
    | gather header digits prompts =>
      cases isKind
      obtain ⟨_, _, _, _, loadedPrompts, same⟩ := loadOwn_gather_eq_ok loadedOwn
      cases same
      refine .gather keeps fun prompt isPrompt => ?_
      rw [normalizeAll_eq_map] at isPrompt
      obtain ⟨raw, isRaw, rfl⟩ := List.mem_map.mp isPrompt
      obtain ⟨item, isItem, loadedItem⟩ := exists_of_mapM_eq_ok loadedPrompts raw isRaw
      rw [normalize_of_load loadedItem]
      exact ih item isItem loadedItem

end Loading

/-- A step is stored with the word of its kind. -/
@[simp] theorem kind_canonical (step : Step) :
    step.canonical.get? "kind" = some (.str step.kind.word) := by
  cases step with
  | act header action => exact Fields.lookup_insert_self "kind" _ _
  | gather header digits prompts => exact Fields.lookup_insert_self "kind" _ _

@[simp] theorem kind_normalForm (step : Step) : step.normalForm.kind = step.kind := by
  cases step with
  | act header action => exact (Action.kind_settle _).trans (Action.kind_normalize action)
  | gather header digits prompts => rfl

end Step

namespace Vocabulary

/-- The words of the kinds, with a policy and with aliases, added in order. -/
def ofAliases (policy : TargetPolicy) (calls : List (String × StepKind)) : Vocabulary :=
  (standard.withPolicy policy).addAliases calls

/-- **What aliases do to words.** With any aliases, added in any order, each word stands for the
kind of the last alias for it, or else for the kind whose word it is, and a step is loaded as one of
the kind that its word stands for. Two things then depend on the aliases: whether every loaded step
is stored such that it is loaded again as one of its kind, and whether every step with the word of a
kind is loaded as one of that kind. -/
theorem words_of_aliases (policy : TargetPolicy) (calls : List (String × StepKind)) :
    (∀ word, (ofAliases policy calls).kindOf? word =
        (calls.reverse.lookup word).or (StepKind.ofWord? word)) ∧
      (∀ stored step, Step.load (ofAliases policy calls) stored = .ok step →
        (ofAliases policy calls).storedKind stored = .ok step.kind) ∧
      ((∀ stored step, Step.load (ofAliases policy calls) stored = .ok step →
          ∃ again, Step.load (ofAliases policy calls) step.canonical = .ok again ∧
            again.kind = step.kind) ↔
        ∀ word kind, (ofAliases policy calls).kindOf? word = some kind →
          (ofAliases policy calls).kindOf? kind.word = some kind) ∧
      ((∀ stored step, ∀ own : StepKind, stored.get? "kind" = some (.str own.word) →
          Step.load (ofAliases policy calls) stored = .ok step → step.kind = own) ↔
        ∀ own kind : StepKind, calls.reverse.lookup own.word = some kind → kind = own) := by
  have keeps : (standard.withPolicy policy).KeepsWords := keepsWords_standard
  refine ⟨kindOf?_addAliases calls, fun _ _ => Step.storedKind_of_load, ⟨?_, ?_⟩, ⟨?_, ?_⟩⟩
  · intro again word kind stands
    obtain ⟨stored, step, _, loaded, rfl⟩ := Step.exists_load_of_kindOf? stands
    obtain ⟨other, loadedAgain, same⟩ := again stored step loaded
    obtain ⟨own, isOwn, standsToo⟩ := storedKind_eq_ok_iff.mp (Step.storedKind_of_load loadedAgain)
    cases step.kind_canonical.symm.trans isOwn
    rw [standsToo, same]
  · intro closed stored step loaded
    refine ⟨step.normalForm, Step.load_canonical_of_spoken (Step.spoken_of_load closed loaded) ?_,
      step.kind_normalForm⟩
    exact fun path isPath => (Step.reachable_of_load loaded path isPath).sound
  · intro loadsOwn own kind last
    have stands : (ofAliases policy calls).kindOf? own.word = some kind := by
      rw [ofAliases, kindOf?_addAliases, last, Option.some_or]
    obtain ⟨stored, step, isWord, loaded, rfl⟩ := Step.exists_load_of_kindOf? stands
    exact loadsOwn stored step own isWord loaded
  · intro onlyOwn stored step own isWord loaded
    obtain ⟨word, isToo, stands⟩ := storedKind_eq_ok_iff.mp (Step.storedKind_of_load loaded)
    cases isWord.symm.trans isToo
    have stays : (ofAliases policy calls).KeepsWords :=
      (keepsWords_addAliases_iff keeps calls).mpr onlyOwn
    exact Option.some.inj (stands.symm.trans (stays own))

/-- An alias may take the word of a kind away. Then steps with that word are loaded as steps of
another kind, and a step of the kind is stored as one of the other. -/
theorem words_of_aliases_taken :
    (¬ ∀ stored step, ∀ own : StepKind, stored.get? "kind" = some (.str own.word) →
        Step.load (ofAliases .drop [("say", .play)]) stored = .ok step → step.kind = own) ∧
      ¬ ∀ stored step, Step.load (ofAliases .drop [("tune", .play), ("play", .pause)]) stored =
          .ok step → ∃ again,
            Step.load (ofAliases .drop [("tune", .play), ("play", .pause)]) step.canonical =
              .ok again ∧ again.kind = step.kind := by
  obtain ⟨_, _, _, own⟩ := words_of_aliases .drop [("say", .play)]
  obtain ⟨_, _, again, _⟩ := words_of_aliases .drop [("tune", .play), ("play", .pause)]
  rw [own, again]
  constructor
  · intro onlyOwn
    cases onlyOwn .say .play rfl
  · intro closed
    cases closed "tune" .play rfl

end Vocabulary

end IvrFlow
