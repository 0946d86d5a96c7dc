import IvrFlow.Proofs.Flow.Stored
import IvrFlow.Proofs.Step.Policies

/-!
The policies for stored targets of an unknown type, in whole flows. The policy that fails differs
from the one that drops by what it rejects (`policies_differ_by_rejection`): what it loads, the other
loads as the same, and what the other loads is stored in a form that both load.
-/

namespace IvrFlow

/-! ### Agreement -/

/-- An outcome for a step stays what it is when the step is one of a flow. -/
theorem AgreeUnless.ofStep {α : Type} {refused : StepError → Prop}
    {first second : Except StepError α} (agree : AgreeUnless refused first second) :
    AgreeUnless (fun error => ∃ own, error = .step own ∧ refused own) (FlowError.ofStep first)
      (FlowError.ofStep second) := by
  rcases agree with rfl | ⟨own, rfl, isRefused⟩
  · exact .refl _
  · exact Or.inr ⟨.step own, rfl, own, rfl, isRefused⟩

theorem Node.agree_load (vocabulary : Vocabulary) (stored : Json) :
    AgreeUnless
      (fun error => ∃ own, error = .step own ∧ ∃ item ∈ stored.storedSteps,
        Step.RefusedTarget vocabulary item own)
      (load (vocabulary.withPolicy .fail) stored) (load (vocabulary.withPolicy .drop) stored) := by
  rw [load_eq, load_eq]
  refine (AgreeUnless.refl _).bind fun node _ => ?_
  refine AgreeUnless.bind (.ofStep (.mapM fun item isStored => ?_)) fun _ _ => .refl _
  exact (Step.agree_load vocabulary item).mono fun error refused => ⟨item, isStored, refused⟩

namespace Flow

/-- The error is about a target of an unknown type in a dial step that is stored in the flow. -/
def RefusedTarget (vocabulary : Vocabulary) (stored : Json) (error : FlowError) : Prop :=
  ∃ own, error = .step own ∧ ∃ entries, Stores vocabulary stored (.obj entries) ∧
    vocabulary.storedKind (.obj entries) = .ok .dial ∧ Dial.Refused entries own

/-- **The two policies agree on a stored flow, unless one of its targets is refused.** -/
theorem agree_load (vocabulary : Vocabulary) (stored : Json) :
    AgreeUnless (RefusedTarget vocabulary stored) (load (vocabulary.withPolicy .fail) stored)
      (load (vocabulary.withPolicy .drop) stored) := by
  refine (AgreeUnless.refl _).bind fun raw isRaw => ?_
  have read := FlowError.ofFault_eq_ok_iff.mp isRaw
  refine AgreeUnless.bind (.mapM fun node isNode => ?_) fun _ _ => .refl _
  refine (Node.agree_load vocabulary node).mono ?_
  rintro error ⟨own, isOwn, item, isStored, entries, isPart, isDial, refused⟩
  exact ⟨own, isOwn, entries, ⟨raw, read, node, isNode, item, isStored, isPart⟩, isDial, refused⟩

end Flow

/-! ### Rejection -/

/-- The first way of loading differs from the second by what it rejects, for a reason: whatever it
loads, the second loads as the same. -/
structure DiffersByRejection {α ε : Type} (strict lax : Json → Except ε α)
    (reason : Json → ε → Prop) : Prop where
  kept : ∀ stored value, strict stored = .ok value → lax stored = .ok value
  rejected : ∀ stored value error, lax stored = .ok value → strict stored = .error error →
    reason stored error

theorem DiffersByRejection.of_agree {α ε : Type} {strict lax : Json → Except ε α}
    {reason : Json → ε → Prop}
    (agree : ∀ stored, AgreeUnless (reason stored) (strict stored) (lax stored)) :
    DiffersByRejection strict lax reason where
  kept stored _ := (agree stored).eq_ok
  rejected stored _ _ := (agree stored).refused_of_eq_error

namespace Vocabulary

/-- **The policies differ by rejection alone.** The one that fails rejects some steps and flows that
the other loads, each for a target of an unknown type stored in it. What the other has loaded then
holds nothing to reject: its canonical form is loaded alike with both. -/
theorem policies_differ_by_rejection (vocabulary : Vocabulary) :
    DiffersByRejection (Step.load (vocabulary.withPolicy .fail))
        (Step.load (vocabulary.withPolicy .drop)) (Step.RefusedTarget vocabulary) ∧
      DiffersByRejection (Flow.load (vocabulary.withPolicy .fail))
        (Flow.load (vocabulary.withPolicy .drop)) (Flow.RefusedTarget vocabulary) ∧
      (vocabulary.KeepsWords →
        (∀ stored step, Step.load (vocabulary.withPolicy .drop) stored = .ok step →
          ∀ policy, Step.load (vocabulary.withPolicy policy) step.canonical =
            .ok step.normalForm) ∧
        ∀ stored flow, Flow.load (vocabulary.withPolicy .drop) stored = .ok flow →
          ∀ policy, Flow.load (vocabulary.withPolicy policy) flow.canonical =
            .ok flow.normalForm) := by
  refine ⟨.of_agree (Step.agree_load vocabulary), .of_agree (Flow.agree_load vocabulary), ?_⟩
  intro keeps
  -- Words do not depend on the policy.
  have keepsToo (policy : TargetPolicy) : (vocabulary.withPolicy policy).KeepsWords := keeps
  constructor
  · intro stored step loaded policy
    refine Step.load_canonical_of_sound (keepsToo policy) step fun path isPath => ?_
    exact (Step.reachable_of_load loaded path isPath).sound
  · intro stored flow loaded policy
    rw [Flow.load_canonical (keepsToo policy) (Flow.reachable_of_load loaded),
      Flow.firstRepeated_stepNames (Flow.nodup_stepNames_of_load loaded)]

/-- A stored menu that rings a fax meanwhile. -/
def faxMenu : Json :=
  .obj [("kind", .str "gather"), ("name", .str "ask"), ("steps", .arr [
    .obj [("kind", .str "dial"), ("name", .str "ring"),
      ("targets", .arr [.obj [("dialType", .str "fax")]])]])]

/-- A stored flow with that menu. -/
def faxFlow : Json :=
  .obj [("nodes", .arr [.obj [("name", .str "main"), ("steps", .arr [faxMenu])]])]

/-- The menu that rings nobody. -/
def quietMenu : Step :=
  .gather (.new .gather "ask") Gather.new.normalize [.act (.new .dial "ring") (.dial .new)]

/-- The flow with the menu that rings nobody. -/
def quietFlow : Flow := ⟨.new, [{ Node.new "main" "" with steps := [quietMenu] }], ⟨0⟩⟩

theorem policies_differ_by_rejection_fax :
    (Step.load (standard.withPolicy .drop) faxMenu = .ok quietMenu ∧
      Step.RefusedTarget standard faxMenu (.unknownDialType "ring" "fax") ∧
      Step.load (standard.withPolicy .fail) quietMenu.canonical = .ok quietMenu.normalForm) ∧
    Flow.load (standard.withPolicy .drop) faxFlow = .ok quietFlow ∧
      Flow.RefusedTarget standard faxFlow (.step (.unknownDialType "ring" "fax")) ∧
      Flow.load (standard.withPolicy .fail) quietFlow.canonical = .ok quietFlow.normalForm := by
  have step : Step.load (standard.withPolicy .drop) faxMenu = .ok quietMenu := rfl
  have noStep : Step.load (standard.withPolicy .fail) faxMenu =
      .error (.unknownDialType "ring" "fax") := rfl
  have flow : Flow.load (standard.withPolicy .drop) faxFlow = .ok quietFlow := rfl
  have noFlow : Flow.load (standard.withPolicy .fail) faxFlow =
      .error (.step (.unknownDialType "ring" "fax")) := rfl
  obtain ⟨steps, flows, storing⟩ := policies_differ_by_rejection standard
  obtain ⟨storingStep, storingFlow⟩ := storing keepsWords_standard
  exact ⟨⟨step, steps.rejected _ _ _ step noStep, storingStep _ _ step .fail⟩,
    flow, flows.rejected _ _ _ flow noFlow, storingFlow _ _ flow .fail⟩

end Vocabulary

end IvrFlow
