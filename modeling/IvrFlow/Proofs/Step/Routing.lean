import IvrFlow.Proofs.Path.Refusal
import IvrFlow.Proofs.Step.Loading
import IvrFlow.Proofs.Step.RoundTrip

/-!
What it takes to route on a response. A call of a service can be edited in every way that the editor
allows (`Service.Edited`), and all that is needed of it for the verdict is that its paths are
reachable. The verdict then says exactly whether there is a next step to go to, and it is the same
when the call has been stored and loaded again (`checkRouting_edited`).
-/

namespace IvrFlow

/-! ### Paths that end -/

theorem Path.isWellFormed_iff {path : Path} :
    path.isWellFormed = true ↔
      ∃ before last, path.hops = before ++ [last] ∧ last.kind = .terminal := by
  unfold isWellFormed
  constructor
  · intro ends
    obtain ⟨last, isLast, isTerminal⟩ := (Option.any_eq_true _ _).mp ends
    obtain ⟨before, split⟩ := List.getLast?_eq_some_iff.mp isLast
    exact ⟨before, last, split, beq_iff_eq.mp isTerminal⟩
  · rintro ⟨before, last, split, isTerminal⟩
    rw [split, List.getLast?_concat, Option.any_some, isTerminal]
    rfl

/-- After a pop there is a hop to edit: the one that was popped, or on an empty path the one that was
there. -/
theorem Path.Sound.isClosed_pop {path : Path} (sound : path.Sound) : path.pop.isClosed = false := by
  unfold Path.pop
  cases isLast : path.hops.getLast? with
  | none =>
    show path.isClosed = false
    rw [sound.closed_eq, isWellFormed, isLast, Option.any_none]
  | some hop => rfl

namespace Service

/-! ### Edited calls -/

/-- The calls of services that loading and editing can give, each with the header of its step. The
name of the step stays; all the rest of the header, and the fields of the call, can be set, and the
path to the next step can also be edited in place, with calls that may be refused. -/
inductive Edited : Header → Service → Prop where
  | new (name : String) : Edited (.new .externalService name) .new
  | load {vocabulary : Vocabulary} {stored : Json} {header : Header} {service : Service} :
      Step.load vocabulary stored = .ok (.act header (.externalService service)) →
      Edited header service
  | header {header changed : Header} {service : Service} :
      Edited header service → changed.name = header.name → Edited changed service
  | fields {header : Header} {service changed : Service} :
      Edited header service → changed.nextPath = service.nextPath →
      (∀ assignment ∈ changed.assignments, assignment.path.Reachable) → Edited header changed
  | nextPath {header : Header} {service : Service} {path : Path} :
      Edited header service → path.Reachable → Edited header { service with nextPath := path }
  | call {header : Header} {service : Service} (call : Path.Call) :
      Edited header service →
      Edited header { service with nextPath := (call.run service.nextPath).2 }

theorem Edited.reachable {header : Header} {service : Service} (edited : service.Edited header) :
    ∀ path ∈ service.paths, path.Reachable := by
  -- What is edited next keeps the assignments or the path, which are reachable already.
  have parts {service : Service} (reachable : ∀ path ∈ service.paths, path.Reachable) :
      (∀ assignment ∈ service.assignments, assignment.path.Reachable) ∧
        service.nextPath.Reachable :=
    ⟨fun assignment isThere => reachable _
        (List.mem_append_left _ (List.mem_map_of_mem isThere)),
      reachable _ (List.mem_append_right _ (List.mem_singleton_self _))⟩
  induction edited with
  | new name => exact reachable_paths (fun _ isThere => absurd isThere List.not_mem_nil) .empty
  | load loaded => exact Step.reachable_of_load loaded
  | header _ _ ih => exact ih
  | fields _ samePath assignments ih =>
    refine reachable_paths assignments ?_
    rw [samePath]
    exact (parts ih).2
  | nextPath _ path ih => exact reachable_paths (parts ih).1 path
  | call call _ ih => exact reachable_paths (parts ih).1 ((parts ih).2.run call)

theorem Edited.sound {header : Header} {service : Service} (edited : service.Edited header) :
    service.nextPath.Sound :=
  (edited.reachable _ (List.mem_append_right _ (List.mem_singleton_self _))).sound

theorem Edited.after {header : Header} {service : Service} (edited : service.Edited header)
    (calls : List Path.Call) :
    Edited header { service with nextPath := service.nextPath.after calls } := by
  induction calls generalizing service with
  | nil => exact edited
  | cons call rest ih => exact ih (edited.call call)

/-! ### Verdicts -/

section

variable {step : String} {service : Service}

theorem checkRouting_eq_ok_iff : service.checkRouting step = .ok () ↔ service.routingGap? = none := by
  unfold checkRouting
  cases service.routingGap? <;> simp

theorem checkRouting_eq_error_iff {error : StepError} :
    service.checkRouting step = .error error ↔
      ∃ gap, service.routingGap? = some gap ∧ error = .incompleteRouting step gap := by
  unfold checkRouting
  cases service.routingGap? <;> simp [eq_comm]

theorem routingGap?_eq_none_iff :
    service.routingGap? = none ↔
      service.doRouting = false ∨ (service.nextType = .fixed ∧ service.next ≠ "") ∨
        (service.nextType = .computed ∧ service.nextPath.isWellFormed = true) := by
  unfold routingGap?
  cases service.doRouting <;> cases service.nextType <;> simp

theorem routingGap?_eq_some_iff {gap : RoutingGap} :
    service.routingGap? = some gap ↔ service.doRouting = true ∧
      ((service.nextType = .fixed ∧ service.next = "" ∧ gap = .noNext) ∨
        (service.nextType = .computed ∧ service.nextPath.isWellFormed = false ∧
          gap = .unfinishedPath)) := by
  unfold routingGap?
  cases service.doRouting <;> cases service.nextType <;> simp [@eq_comm _ gap]

end

/-- **The verdict on routing is exact, and survives storing.** A call that has been loaded and edited
can route on the response exactly if it should not, or goes to a fixed step and has one, or goes where
a path leads and the path ends in the value; that is, the path is closed. Otherwise the error says
which of the two is lacking. So while a hop is pending on the path, be it one that would end it, and
after every pop, a call that should go where the path leads cannot. With any vocabulary that keeps
the words of the kinds the verdict on the step that is stored and loaded again is the same. -/
theorem checkRouting_edited {header : Header} {service : Service} (edited : service.Edited header) :
    let ends := ∃ before last, service.nextPath.hops = before ++ [last] ∧ last.kind = .terminal
    (service.checkRouting header.name = .ok () ↔
        service.doRouting = false ∨ (service.nextType = .fixed ∧ service.next ≠ "") ∨
          (service.nextType = .computed ∧ ends)) ∧
      (ends ↔ service.nextPath.isClosed = true) ∧
      (∀ error, service.checkRouting header.name = .error error ↔ service.doRouting = true ∧
        ((service.nextType = .fixed ∧ service.next = "" ∧
            error = .incompleteRouting header.name .noNext) ∨
          (service.nextType = .computed ∧ ¬ ends ∧
            error = .incompleteRouting header.name .unfinishedPath))) ∧
      (∀ calls : List Path.Call, service.doRouting = true → service.nextType = .computed →
        let path := service.nextPath.after calls
        let verdict (path : Path) :=
          { service with nextPath := path }.checkRouting header.name
        (∀ hop, path.pending = some hop →
          verdict path = .error (.incompleteRouting header.name .unfinishedPath)) ∧
        verdict path.pop = .error (.incompleteRouting header.name .unfinishedPath)) ∧
      ∀ vocabulary : Vocabulary, vocabulary.KeepsWords → ∃ headerAgain serviceAgain,
        Step.load vocabulary (Step.canonical (.act header (.externalService service))) =
            .ok (.act headerAgain (.externalService serviceAgain)) ∧
          serviceAgain.checkRouting headerAgain.name = service.checkRouting header.name := by
  intro ends
  have endsIff : service.nextPath.isWellFormed = true ↔ ends := Path.isWellFormed_iff
  refine ⟨?_, ?_, ?_, ?_, ?_⟩
  · rw [checkRouting_eq_ok_iff, routingGap?_eq_none_iff, endsIff]
  · rw [edited.sound.closed_eq, endsIff]
  · intro error
    rw [checkRouting_eq_error_iff, ← endsIff, Bool.not_eq_true]
    simp only [routingGap?_eq_some_iff]
    constructor
    · rintro ⟨gap, ⟨routes, ⟨fixed, none, rfl⟩ | ⟨computed, unfinished, rfl⟩⟩, isError⟩
      · exact ⟨routes, Or.inl ⟨fixed, none, isError⟩⟩
      · exact ⟨routes, Or.inr ⟨computed, unfinished, isError⟩⟩
    · rintro ⟨routes, ⟨fixed, none, isError⟩ | ⟨computed, unfinished, isError⟩⟩
      · exact ⟨_, ⟨routes, Or.inl ⟨fixed, none, rfl⟩⟩, isError⟩
      · exact ⟨_, ⟨routes, Or.inr ⟨computed, unfinished, rfl⟩⟩, isError⟩
  · intro calls routes computed path verdict
    -- A sound path on which a hop is pending does not end in the value.
    have unfinished {path : Path} (sound : path.Sound) (pending : path.isClosed = false) :
        verdict path = .error (.incompleteRouting header.name .unfinishedPath) := by
      refine checkRouting_eq_error_iff.mpr ⟨.unfinishedPath, ?_, rfl⟩
      exact routingGap?_eq_some_iff.mpr
        ⟨routes, Or.inr ⟨computed, sound.closed_eq.symm.trans pending, rfl⟩⟩
    have sound : path.Sound := (edited.after calls).sound
    refine ⟨fun hop pending => unfinished sound ?_, unfinished sound.pop sound.isClosed_pop⟩
    rw [Path.isClosed, pending]
    rfl
  · intro vocabulary keeps
    exact ⟨header.normalize .externalService, service.settle,
      (Step.load_canonical_eq_normalForm keeps (.act header (.externalService service))
        edited.reachable).1, rfl⟩

/-- A stored call that goes where the whole response says. -/
def storedRouted : Json :=
  .obj [("doRouting", .bool true), ("kind", .str "externalService"), ("name", .str "call"),
    ("nextType", .str "computed"),
    ("nextValueExtractor", .obj [("operations", .arr [.obj [("kind", .str "value")]])])]

/-- The call with a path that is given. -/
def routed (path : Path) : Service :=
  { new with doRouting := true, nextType := .computed, nextPath := path }

/-- The call can route until its path is popped. Then the hop that would end the path is pending, and
is not stored. -/
theorem checkRouting_edited_popped :
    let whole : Path := ⟨[.committedValue], none⟩
    let header := Header.new .externalService "call"
    let lacking : StepError := .incompleteRouting "call" .unfinishedPath
    Step.load .standard storedRouted = .ok (.act header (.externalService (routed whole))) ∧
      (routed whole).checkRouting "call" = .ok () ∧
      whole.pop = ⟨[], some .toValue⟩ ∧ (routed whole.pop).checkRouting "call" = .error lacking ∧
      ∃ headerAgain serviceAgain,
        Step.load .standard (Step.canonical (.act header (.externalService (routed whole.pop)))) =
            .ok (.act headerAgain (.externalService serviceAgain)) ∧
          serviceAgain.checkRouting headerAgain.name = .error lacking := by
  intro whole header lacking
  have loaded : Step.load .standard storedRouted =
      .ok (.act header (.externalService (routed whole))) := by decide +kernel
  have edited : (routed whole).Edited header := .load loaded
  obtain ⟨exact, ends, _, sessions, _⟩ := checkRouting_edited edited
  have popped := (sessions [] rfl rfl).2
  obtain ⟨_, _, _, _, again⟩ := checkRouting_edited (edited.call .pop)
  obtain ⟨headerAgain, serviceAgain, reloaded, verdict⟩ :=
    again .standard Vocabulary.keepsWords_standard
  exact ⟨loaded, exact.mpr (Or.inr (Or.inr ⟨rfl, ends.mpr rfl⟩)), rfl, popped, headerAgain,
    serviceAgain, reloaded, verdict.trans popped⟩

end Service

end IvrFlow
