import DialMenu.Proofs.Cycle
import DialMenu.Proofs.Definition.WellFormed

/-!
The report of an unbounded chain. The search for it runs over a graph of the states that go on by themselves; the report
is made exactly if that graph has a cycle, and then it names one.
-/

namespace DialMenu

/-- The violation is an unbounded chain. -/
def Violation.isUnboundedChain : Violation → Bool
  | .unboundedChain _ => true
  | _ => false

namespace Definition

theorem State.candidates_subset_routes {source : State} {kind : EventKind} {route : Route}
    (mem : route ∈ source.candidates kind) : route ∈ source.routes :=
  mem_routes_iff.2 (.inl ⟨kind, mem⟩)

theorem State.automaticRoutes_subset_routes {source : State} {route : Route} (mem : route ∈ source.automaticRoutes) :
    route ∈ source.routes := by
  unfold automaticRoutes at mem
  split at mem
  · exact candidates_subset_routes mem
  · exact List.mem_append_right _ mem

/-- The state goes on by itself. -/
def Automatic (definition : Definition) (id : String) : Prop :=
  ∃ source, definition.state? id = some source ∧ source.isAutomatic = true

theorem mem_automaticTargets_iff {definition : Definition} {id target : String} :
    target ∈ definition.automaticTargets id ↔ ∃ source, definition.state? id = some source ∧
      (∃ route ∈ source.automaticRoutes, route.target = target) ∧ definition.Automatic target := by
  unfold automaticTargets Automatic
  cases definition.state? id with
  | none => simp
  | some source => simp [Option.any_eq_true]

theorem mem_keys_of_state? {definition : Definition} {id : String} {source : State}
    (found : definition.state? id = some source) : id ∈ definition.states.keys :=
  List.mem_map.2 ⟨(id, source), (Table.mem_entries_iff _ _ _).2 found, rfl⟩

/-- A candidate by which a state goes on without input: one for the event that it raises or, where it raises none, one
for an outcome of its call. -/
inductive State.GoesOnBy (source : State) (route : Route) : Prop
  | raise {r : EntryRaise} : source.raise = some r → route ∈ source.candidates r.kind → GoesOnBy source route
  | done {call : Call} : source.raise = none → source.call = some call → route ∈ call.onDone → GoesOnBy source route
  | error {call : Call} : source.raise = none → source.call = some call → route ∈ call.onError → GoesOnBy source route

/-- Without input the machine may go on from `id` to `target`, where it does not stop. -/
structure Leads (definition : Definition) (id target : String) : Prop where
  route : ∃ source route, definition.state? id = some source ∧ source.GoesOnBy route ∧ route.target = target
  onward : ∃ source, definition.state? target = some source ∧ source.isFinal = false ∧
    (source.raise.isSome = true ∨ source.call.isSome = true)

theorem State.mem_automaticRoutes_iff {source : State} {route : Route} :
    route ∈ source.automaticRoutes ↔ source.GoesOnBy route := by
  unfold automaticRoutes callRoutes
  constructor
  · intro mem
    cases raises : source.raise with
    | some r =>
      rw [raises] at mem
      exact .raise raises mem
    | none =>
      rw [raises] at mem
      cases calls : source.call with
      | none => simp [calls] at mem
      | some call =>
        rw [calls] at mem
        rcases List.mem_append.1 mem with done | error
        · exact .done raises calls done
        · exact .error raises calls error
  · rintro (⟨raises, mem⟩ | ⟨quiet, calls, mem⟩ | ⟨quiet, calls, mem⟩)
    · rwa [raises]
    · rw [quiet, calls]
      exact List.mem_append_left _ mem
    · rw [quiet, calls]
      exact List.mem_append_right _ mem

/-- The search goes along the edges of that graph. -/
theorem mem_automaticTargets_iff_leads {definition : Definition} {id target : String} :
    target ∈ definition.automaticTargets id ↔ definition.Leads id target := by
  simp only [mem_automaticTargets_iff, Automatic, State.isAutomatic, State.mem_automaticRoutes_iff, Bool.and_eq_true,
    Bool.or_eq_true, Bool.not_eq_true']
  constructor
  · rintro ⟨source, found, ⟨route, goes, there⟩, onward, foundOnward, acts, proceeds⟩
    exact ⟨⟨source, route, found, goes, there⟩, ⟨onward, foundOnward, proceeds, acts⟩⟩
  · rintro ⟨⟨source, route, found, goes, there⟩, ⟨onward, foundOnward, proceeds, acts⟩⟩
    exact ⟨source, found, ⟨route, goes, there⟩, onward, foundOnward, acts, proceeds⟩

/-- The search begins at all nodes that it comes to. -/
theorem automaticTargets_closed (definition : Definition) (id : String) :
    ∀ target ∈ definition.automaticTargets id, target ∈ definition.states.keys := by
  intro target edge
  obtain ⟨_, _, _, _, here, _⟩ := mem_automaticTargets_iff.1 edge
  exact mem_keys_of_state? here

/-- In a well-formed definition no state leads back to itself without input. -/
theorem WellFormed.not_transGen_self {definition : Definition} (sound : definition.WellFormed) {id : String}
    {source : State} (found : definition.state? id = some source) :
    ¬ Relation.TransGen (Cycle.Successor definition.automaticTargets) id id := by
  exact Cycle.not_transGen_self
    (Cycle.acc_of_find?_eq_none definition.automaticTargets_closed sound.bounded (mem_keys_of_state? found))

theorem mem_reportIf {condition : Bool} {reported violation : Violation} :
    violation ∈ reportIf condition reported ↔ condition = true ∧ violation = reported := by
  cases condition <;> simp [reportIf]

/-- The checks of the states report no chain. -/
theorem State.isUnboundedChain_of_mem {definition : Definition} {id : String} {source : State} {violation : Violation}
    (mem : violation ∈ source.violations definition id) : violation.isUnboundedChain = false := by
  simp only [violations, List.mem_append] at mem
  rcases mem with ((target | final) | raise) | call
  · obtain ⟨route, -, rfl⟩ := List.mem_map.1 target
    rfl
  · unfold finalViolations at final
    split at final
    · simp only [List.mem_append, mem_reportIf] at final
      rcases final with ⟨-, rfl⟩ | ⟨-, rfl⟩ <;> rfl
    · cases final
  · unfold raiseViolations at raise
    split at raise
    · cases raise
    · simp only [List.mem_append, mem_reportIf] at raise
      rcases raise with unhandled | ⟨-, rfl⟩
      · split at unhandled
        · rw [List.mem_singleton.1 unhandled]
          rfl
        · rw [(mem_reportIf.1 unhandled).2]
          rfl
      · rfl
  · unfold callViolations at call
    split at call
    · cases call
    · simp only [List.mem_append, mem_reportIf] at call
      rcases call with ⟨-, rfl⟩ | ⟨-, rfl⟩ <;> rfl

/-- Of the defects of the graph only the last can be a chain. -/
theorem filter_graphViolations (definition : Definition) :
    definition.graphViolations.filter Violation.isUnboundedChain =
      (definition.unboundedChain?.map Violation.unboundedChain).toList := by
  have initial (condition : Bool) (id : String) :
      (reportIf condition (.missingInitial id)).filter Violation.isUnboundedChain = [] := by
    cases condition <;> rfl
  have states : (definition.states.entries.flatMap fun entry => entry.2.violations definition entry.1).filter
      Violation.isUnboundedChain = [] := by
    refine List.filter_eq_nil_iff.2 fun violation mem => ?_
    obtain ⟨entry, -, here⟩ := List.mem_flatMap.1 mem
    simp [State.isUnboundedChain_of_mem here]
  have parts : definition.graphViolations =
      reportIf (!definition.states.contains definition.initial) (.missingInitial definition.initial) ++
        (definition.states.entries.flatMap fun entry => entry.2.violations definition entry.1) ++
        (definition.unboundedChain?.map Violation.unboundedChain).toList := rfl
  rw [parts, List.filter_append, List.filter_append, initial, states, List.nil_append, List.nil_append]
  cases definition.unboundedChain? <;> rfl

theorem unboundedChain_mem_iff {definition : Definition} {cycle : List String} :
    .unboundedChain cycle ∈ definition.graphViolations ↔ definition.unboundedChain? = some cycle := by
  have reported : .unboundedChain cycle ∈ definition.graphViolations ↔
      .unboundedChain cycle ∈ definition.graphViolations.filter Violation.isUnboundedChain := by
    simp [List.mem_filter, Violation.isUnboundedChain]
  rw [reported, filter_graphViolations]
  cases definition.unboundedChain? <;> simp [eq_comm]

/-- A chain is reported exactly if some state leads back to itself without input, and it is reported once. What is
reported is a cycle of the graph. The search for it ends by itself: without any bound on its depth there is one thing
that it finds, and that is the report. -/
theorem reports_cycle (definition : Definition) :
    ((∃ cycle, .unboundedChain cycle ∈ definition.graphViolations) ↔
        ∃ id, Relation.TransGen definition.Leads id id) ∧
      definition.graphViolations.countP Violation.isUnboundedChain ≤ 1 ∧
      (∀ cycle, .unboundedChain cycle ∈ definition.graphViolations → Cycle.IsCycle definition.Leads cycle) ∧
      ∃ result,
        (∀ other, Cycle.Visits definition.automaticTargets [] [] definition.states.keys other ↔ other = result) ∧
        definition.unboundedChain? = result.cycle? := by
  have edges : (fun id target => target ∈ definition.automaticTargets id) = definition.Leads :=
    funext fun id => funext fun target => propext mem_automaticTargets_iff_leads
  have genuine (cycle : List String) (reported : .unboundedChain cycle ∈ definition.graphViolations) :
      Cycle.IsCycle definition.Leads cycle := by
    rw [← edges]
    exact Cycle.isCycle_of_find? definition.automaticTargets_closed (unboundedChain_mem_iff.1 reported)
  refine ⟨⟨?_, ?_⟩, ?_, genuine, ?_⟩
  · rintro ⟨cycle, reported⟩
    exact (genuine cycle reported).exists_transGen
  · rintro ⟨id, back⟩
    cases found : definition.unboundedChain? with
    | some cycle => exact ⟨cycle, unboundedChain_mem_iff.2 found⟩
    | none =>
      obtain ⟨_, first, _⟩ := Relation.TransGen.head'_iff.1 back
      obtain ⟨source, _, declared, _, _⟩ := first.route
      have acc := Cycle.acc_of_find?_eq_none definition.automaticTargets_closed found (mem_keys_of_state? declared)
      refine absurd ?_ (Cycle.not_transGen_self acc)
      rw [← edges] at back
      exact Relation.transGen_swap.2 back
  · rw [List.countP_eq_length_filter, filter_graphViolations]
    cases definition.unboundedChain? <;> simp
  · obtain ⟨result, visits, answer⟩ := Cycle.exists_visits definition.automaticTargets_closed
    exact ⟨result, fun other => ⟨fun visits' => visits'.unique visits, fun same => same ▸ visits⟩, answer⟩

end Definition

end DialMenu
