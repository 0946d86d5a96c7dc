import IvrFlow.Proofs.Step.Canonical
import IvrFlow.Proofs.Step.Kept

/-!
How deep canonical forms are. The canonical form of a gather step shows a validation with an
announcement even where none is stored, and so can be deeper than what was stored: gather steps in
each other, with nothing else stored with them, become three levels deeper (`depth_storedNest`,
`le_depth_canonical_nest`).
-/

namespace IvrFlow.Step

/-- Each prompt stands two levels below its gather step. -/
theorem depth_canonical_prompt (header : Header) (digits : Gather) {prompts : List Step}
    {prompt : Step} (isPrompt : prompt ∈ prompts) :
    prompt.canonical.depth + 2 ≤ (gather header digits prompts).canonical.depth := by
  have steps := Json.depth_lt_of_mem_parts
    (Json.mem_parts_of_get? (get?_steps_canonical header digits prompts))
  have inSteps : prompt.canonical ∈ (Json.arr (prompts.map canonical)).parts :=
    List.mem_map_of_mem isPrompt
  have below := Json.depth_lt_of_mem_parts inSteps
  omega

/-- However little a gather step holds, its canonical form shows a validation, with an announcement,
with what the editor keeps with that. -/
theorem four_le_depth_canonical (header : Header) (digits : Gather) (prompts : List Step) :
    4 ≤ (gather header digits prompts).canonical.depth := by
  have shown := (gather header digits prompts).shown_canonical
  generalize (gather header digits prompts).canonical = stored at shown
  cases shown with
  | gather own present isShown steps each =>
    rename_i entries _
    obtain ⟨_, validation, isValidation, fields, _, announcement, rfl, _, _, isAnnouncement,
      announced, rfl, ofHeader, _⟩ := isShown
    obtain ⟨kept, isKept⟩ := ofHeader.iface
    have first : Json.depth (.obj fields) < Json.depth (.obj entries) :=
      Json.depth_lt_of_mem_parts (Json.mem_parts_of_get? isValidation)
    have second : Json.depth (.obj announced) < Json.depth (.obj fields) :=
      Json.depth_lt_of_mem_parts (Json.mem_parts_of_get? isAnnouncement)
    have third : Json.depth (.obj kept) < Json.depth (.obj announced) :=
      Json.depth_lt_of_mem_parts (Json.mem_parts_of_get? isKept)
    have last : 0 < Json.depth (.obj kept) := Nat.succ_pos _
    omega

/-! ### Gather steps in each other -/

/-- A stored gather step with a number of others in each other as its only prompt, and nothing else
stored with any of them. -/
def storedNest : Nat → Json
  | 0 => .obj [("kind", .str "gather")]
  | n + 1 => .obj [("kind", .str "gather"), ("steps", .arr [storedNest n])]

/-- The step that is loaded from it. -/
def nest : Nat → Step
  | 0 => normalize (.gather .blank .new [])
  | n + 1 => normalize (.gather .blank .new [nest n])

theorem load_storedNest (policy : TargetPolicy) :
    ∀ n : Nat, load (Vocabulary.standard.withPolicy policy) (storedNest n) = .ok (nest n)
  | 0 => rfl
  | n + 1 => by
    let entries : Fields := [("kind", .str "gather"), ("steps", .arr [storedNest n])]
    have prompts :
        loadPrompts (Vocabulary.standard.withPolicy policy) entries = .ok [nest n] := by
      rw [loadPrompts_eq]
      show loadAll (Vocabulary.standard.withPolicy policy) [storedNest n] = .ok [nest n]
      rw [loadAll_eq_mapM, List.mapM_cons, load_storedNest policy n]
      rfl
    show (do
      let prompts ← loadPrompts (Vocabulary.standard.withPolicy policy) entries
      return normalize (.gather .blank .new prompts)) = _
    rw [prompts]
    rfl

theorem throughout_storedNest {property : Json → Prop} (granted : Json.Granted property) :
    ∀ n : Nat, (storedNest n).Throughout property
  | 0 => granted.obj (List.pairwise_singleton _ _) (List.forall_mem_singleton.mpr (granted.str _))
  | n + 1 => by
    have prompts : (Json.arr [storedNest n]).Throughout property :=
      granted.arr (List.forall_mem_singleton.mpr (throughout_storedNest granted n))
    refine granted.obj (List.pairwise_pair.mpr (by decide : "kind" < "steps")) ?_
    exact List.forall_mem_cons.mpr ⟨granted.str _, List.forall_mem_singleton.mpr prompts⟩

theorem depth_storedNest : ∀ n : Nat, (storedNest n).depth = 2 * n + 1
  | 0 => rfl
  | n + 1 => by
    simp only [storedNest, Json.depth, Json.depthOfFields, Json.depthOfItems, depth_storedNest n]
    omega

theorem le_depth_canonical_nest : ∀ n : Nat, 2 * n + 4 ≤ (nest n).canonical.depth
  | 0 => by
    rw [nest, canonical_normalize]
    exact four_le_depth_canonical _ _ _
  | n + 1 => by
    have prompt := le_depth_canonical_nest n
    rw [nest, canonical_normalize]
    have below := depth_canonical_prompt .blank .new (List.mem_singleton_self (nest n))
    omega

end IvrFlow.Step
