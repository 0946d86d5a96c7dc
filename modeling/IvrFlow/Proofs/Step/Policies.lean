import IvrFlow.Proofs.Step.Prompts

/-!
The policies for stored targets of an unknown type. A step is loaded alike with both of them, unless
the one that fails comes upon such a target in a dial step, at any depth (`agree_load`).
-/

namespace IvrFlow

/-! ### Targets of an unknown type -/

/-- A word is found unless it is that of no type. -/
theorem DialType.ofWord?_eq_none_iff {word : String} :
    ofWord? word = none ↔ ∀ dialType : DialType, dialType.word ≠ word := by
  simp only [ofWord?, List.find?_eq_none, beq_iff_eq]
  constructor
  · intro unknown dialType
    refine unknown dialType ?_
    cases dialType <;> simp [all]
  · exact fun unknown dialType _ => unknown dialType

theorem DialType.word_ne_empty (dialType : DialType) : dialType.word ≠ "" := by
  cases dialType <;> decide

namespace DialTarget

/-- The type that a stored value has, or should have, as a target is none of those there are. -/
def Unknown (stored : Json) : Prop := ∀ dialType : DialType, dialType.word ≠ typeWord stored

/-- Only a target of an unknown type is none. -/
theorem unknown_of_load? {stored : Json} (left : load? stored = .ok none) : Unknown stored := by
  cases stored with
  | obj entries =>
    rw [load?] at left
    split at left
    · rename_i notFound
      exact DialType.ofWord?_eq_none_iff.mp notFound
    · obtain ⟨_, _, found⟩ := bind_eq_ok_iff.mp left
      cases found
  | null | bool | num | str | arr => exact DialType.word_ne_empty

/-- The error names a step and the type of one of its stored targets, which is unknown. -/
def Refused (step : String) (stored : List Json) (error : StepError) : Prop :=
  ∃ target ∈ stored, Unknown target ∧ error = .unknownDialType step (typeWord target)

/-- Targets are loaded alike, unless one of them is refused for its type. -/
theorem agree_loadAll (step : String) (stored : List Json) :
    AgreeUnless (Refused step stored) (loadAll .fail step stored) (loadAll .drop step stored) := by
  induction stored with
  | nil => exact .refl _
  | cons first rest ih =>
    have later : AgreeUnless (Refused step (first :: rest)) (loadAll .fail step rest)
        (loadAll .drop step rest) :=
      ih.mono fun error ⟨target, isTarget, reason⟩ =>
        ⟨target, List.mem_cons_of_mem first isTarget, reason⟩
    rw [loadAll, loadAll]
    refine (AgreeUnless.refl (load? first)).bind fun found isFound => ?_
    cases found with
    | none => exact Or.inr ⟨_, rfl, first, List.mem_cons_self, unknown_of_load? isFound, rfl⟩
    | some target => exact later.bind fun _ _ => .refl _

end DialTarget

/-- One of the stored targets of a dial step is refused for its type. -/
def Dial.Refused (entries : Fields) (error : StepError) : Prop :=
  ∃ header dial, readStep .dial fields .new entries = .ok (header, dial) ∧
    DialTarget.Refused header.name (storedTargets entries) error

theorem Dial.agree_load (entries : Fields) :
    AgreeUnless (Refused entries) (Step.loadDial .fail entries) (Step.loadDial .drop entries) := by
  refine (AgreeUnless.refl _).bind fun ⟨header, dial⟩ read => ?_
  refine AgreeUnless.bind ?_ fun _ _ => .refl _
  exact (DialTarget.agree_loadAll header.name (storedTargets entries)).mono
    fun error refused => ⟨header, dial, read, refused⟩

/-! ### Steps -/

namespace Step

/-- The error is about a target of an unknown type in a dial step that is stored in the step. -/
def RefusedTarget (vocabulary : Vocabulary) (stored : Json) (error : StepError) : Prop :=
  ∃ entries, Stores vocabulary stored (.obj entries) ∧
    vocabulary.storedKind (.obj entries) = .ok .dial ∧ Dial.Refused entries error

/-- **The two policies agree on a stored step, unless one of its targets is refused.** -/
theorem agree_load (vocabulary : Vocabulary) (stored : Json) :
    AgreeUnless (RefusedTarget vocabulary stored) (load (vocabulary.withPolicy .fail) stored)
      (load (vocabulary.withPolicy .drop) stored) := by
  induction stored using storedInduction with
  | each stored ih =>
    -- The words for kinds are the same with every policy.
    refine (AgreeUnless.refl (vocabulary.storedKind stored)).bind fun kind isKind => ?_
    cases stored with
    | obj entries =>
      rw [loadAs_obj, loadAs_obj]
      refine AgreeUnless.bind ?_ fun _ _ => .refl _
      cases kind with
      | dial =>
        exact (Dial.agree_load entries).mono fun error refused =>
          ⟨entries, .self _, isKind, refused⟩
      | gather =>
        refine (AgreeUnless.refl _).bind fun ⟨header, digits⟩ _ => ?_
        refine AgreeUnless.bind (.mapM fun item isStored => ?_) fun _ _ => .refl _
        exact (ih item isStored).mono fun error ⟨others, isPart, isDial, refused⟩ =>
          ⟨others, .prompt isKind isStored isPart, isDial, refused⟩
      | say | play | redirect | hangUp | reject | pause | externalService => exact .refl _
    | null | bool | num | str | arr => exact .refl _

end Step

end IvrFlow
