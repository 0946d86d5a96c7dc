import IvrFlow.Proofs.Flow.RoundTrip
import IvrFlow.Proofs.Step.Kept

/-!
What canonical forms of loaded flows take over from the document, as those of loaded steps do. A
node keeps its own editor data as it is stored, whatever it is.
-/

namespace IvrFlow

variable {property : Json → Prop}

theorem throughout_writeFields (granted : Json.Granted property) {α : Type}
    {fields : List (Field α)} (inOrder : InOrder fields) {record : α}
    (throughout : ∀ field ∈ fields, ∀ stored, field.write record = some stored →
      stored.Throughout property) :
    (Json.obj (writeFields fields record)).Throughout property := by
  refine granted.obj (sorted_writeFields inOrder) fun entry isEntry => ?_
  obtain ⟨field, isField, _, written⟩ := mem_writeFields isEntry
  exact throughout field isField entry.2 written

theorem FlowHeader.throughout_write (granted : Json.Granted property) (header : FlowHeader) :
    (form.codec.write header).Throughout property := by
  refine throughout_writeFields granted (by decide) fun field member stored written => ?_
  simp only [form, List.mem_cons, List.not_mem_nil, or_false] at member
  rcases member with rfl | rfl | rfl
  · cases written
    exact granted.str _
  · obtain ⟨name, _, rfl⟩ := Option.map_eq_some_iff.mp written
    exact granted.str name
  · cases written
    exact granted.str _

namespace Node

theorem throughout_canonical (granted : Json.Granted property) {node : Node}
    (iface : node.iface.Throughout property)
    (steps : ∀ step ∈ node.steps, step.canonical.Throughout property) :
    node.canonical.Throughout property := by
  have own : (Json.obj (writeFields form.fields node)).Throughout property := by
    refine throughout_writeFields granted (by decide) fun field member stored written => ?_
    simp only [form, List.mem_cons, List.not_mem_nil, or_false] at member
    rcases member with rfl | rfl | rfl | rfl <;> cases written
    · exact iface
    · exact granted.str _
    · exact granted.str _
    · exact granted.str _
  have each := Json.forall_parts_obj.mp own.parts
  refine granted.obj (Fields.sorted_insert (sorted_writeFields (by decide)) _ _) ?_
  intro entry isEntry
  rcases Fields.mem_insert isEntry with rfl | before
  · exact granted.arr (List.forall_mem_map.mpr steps)
  · exact each entry before

/-- The editor data of a node is one of the parts it is read from. -/
theorem throughout_iface_of_read (granted : Json.Granted property) {stored : Json}
    (throughout : stored.Throughout property) {node : Node}
    (read : form.codec.read stored = .ok node) : node.iface.Throughout property := by
  have preserves : ∀ field ∈ form.fields, field.Preserves (Json.Throughout property)
      fun node => node.iface.Throughout property := by
    intro field member
    simp only [form, List.mem_cons, List.not_mem_nil, or_false] at member
    rcases member with rfl | rfl | rfl | rfl
    · intro stored before result isGiven _ succeeds
      cases succeeds
      exact isGiven
    · exact Field.preserves_of fun _ _ before => before
    · exact Field.preserves_of fun _ _ before => before
    · exact Field.preserves_of fun _ _ before => before
  refine Record.read_preserves preserves (fun field isField => preserves field ?_) throughout.parts
    granted.emptyObject read
  simp only [form, List.mem_cons, List.not_mem_nil, or_false] at isField ⊢
  tauto

theorem throughout_canonical_of_load (granted : Json.Granted property) {vocabulary : Vocabulary}
    {stored : Json} (throughout : stored.Throughout property) {node : Node}
    (loaded : load vocabulary stored = .ok node) : node.canonical.Throughout property := by
  obtain ⟨own, steps, read, loadedSteps, rfl⟩ := exists_own_of_load loaded
  have iface : own.iface.Throughout property := throughout_iface_of_read granted throughout read
  refine throughout_canonical granted iface fun step isStep => ?_
  obtain ⟨item, isItem, loadedStep⟩ := exists_of_mapM_eq_ok loadedSteps step isStep
  have inItem := throughout.storedSteps item isItem
  exact Step.throughout_canonical_of_load granted inItem loadedStep

end Node

namespace Flow

theorem throughout_nodes_of_read {stored : Json} (throughout : stored.Throughout property)
    {raw : StoredFlow} (read : StoredFlow.form.codec.read stored = .ok raw) :
    ∀ node ∈ raw.nodes, node.Throughout property := by
  have preserves : ∀ field ∈ StoredFlow.form.fields, field.Preserves (Json.Throughout property)
      fun raw => ∀ node ∈ raw.nodes, node.Throughout property := by
    intro field member
    simp only [StoredFlow.form, List.mem_cons, List.not_mem_nil, or_false] at member
    rcases member with rfl | rfl | rfl
    · exact Field.preserves_of fun _ _ before => before
    · exact Field.preserves_of fun _ _ before => before
    · intro stored before result isGiven _ succeeds
      obtain ⟨nodes, readNodes, isResult⟩ := bind_eq_ok_iff.mp succeeds
      cases isResult
      cases stored with
      | arr items =>
        intro node isNode
        obtain ⟨item, isItem, same⟩ := exists_of_mapM_eq_ok readNodes node isNode
        cases same
        exact isGiven.parts _ isItem
      | null | bool | num | str | obj => cases readNodes
  exact Record.read_preserves preserves preserves throughout.parts (List.forall_mem_nil _) read

/-- **What is granted and holds throughout a stored value holds throughout the canonical form of the
flow that is loaded from it.** -/
theorem throughout_canonical_of_load (granted : Json.Granted property) {vocabulary : Vocabulary}
    {stored : Json} {flow : Flow} (throughout : stored.Throughout property)
    (loaded : load vocabulary stored = .ok flow) : flow.canonical.Throughout property := by
  obtain ⟨raw, read, loadedNodes, _⟩ := load_cases loaded
  have nodes : ∀ node ∈ flow.nodes, node.canonical.Throughout property := by
    intro node isNode
    obtain ⟨item, isItem, loadedNode⟩ := exists_of_mapM_eq_ok loadedNodes node isNode
    have inItem := throughout_nodes_of_read throughout read item isItem
    exact Node.throughout_canonical_of_load granted inItem loadedNode
  rw [← write_eq_canonical]
  refine throughout_writeFields granted (by decide) fun field member stored written => ?_
  simp only [StoredFlow.form, List.mem_cons, List.not_mem_nil, or_false] at member
  rcases member with rfl | rfl | rfl <;> cases written
  · exact flow.header.throughout_write granted
  · exact granted.natural _
  · exact granted.arr (List.forall_mem_map.mpr (List.forall_mem_map.mpr nodes))

end Flow

end IvrFlow
