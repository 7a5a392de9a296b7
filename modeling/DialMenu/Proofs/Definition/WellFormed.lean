import DialMenu.Definition.Check

/-!
The candidates of a state, and what a definition without a graph violation guarantees, state by state.
-/

namespace DialMenu.Definition

/-- The graph has no defect at this state. -/
structure State.WellFormed (definition : Definition) (state : State) : Prop where
  targets : ∀ route ∈ state.routes, definition.states.contains route.target = true
  final : state.isFinal = true → (∀ routes ∈ state.on.values, routes = []) ∧ state.raise = none ∧ state.call = none
  raise : ∀ r, state.raise = some r →
    (∃ route ∈ state.candidates r.kind, route.guard = none) ∧ state.call = none
  call : ∀ c, state.call = some c → c.onDone ≠ [] ∧ c.onError ≠ []

/-- The graph has no defect. -/
structure WellFormed (definition : Definition) : Prop where
  initial : definition.states.contains definition.initial = true
  states : ∀ id state, definition.state? id = some state → state.WellFormed definition
  bounded : definition.unboundedChain? = none

namespace State

/-- The candidates for an event stand in the table under its kind. -/
theorem mem_candidates_iff {state : State} {event : EventKind} {route : Route} :
    route ∈ state.candidates event ↔ ∃ routes, (event, routes) ∈ state.on.entries ∧ route ∈ routes := by
  simp only [Table.mem_entries_iff]
  unfold candidates
  cases state.on.get? event <;> simp

/-- All candidates of a state are those for events and those for the outcomes of its call. -/
theorem mem_routes_iff {state : State} {route : Route} : route ∈ state.routes ↔
    (∃ event, route ∈ state.candidates event) ∨
      ∃ call, state.call = some call ∧ (route ∈ call.onDone ∨ route ∈ call.onError) := by
  have listed : route ∈ state.on.values.flatten ↔ ∃ event, route ∈ state.candidates event := by
    simp only [Table.values, List.mem_flatten, List.mem_map, Prod.exists, exists_eq_right, mem_candidates_iff]
    exact ⟨fun ⟨routes, ⟨event, mem⟩, inside⟩ => ⟨event, routes, mem, inside⟩,
      fun ⟨event, routes, mem, inside⟩ => ⟨routes, ⟨event, mem⟩, inside⟩⟩
  have called : route ∈ state.callRoutes ↔
      ∃ call, state.call = some call ∧ (route ∈ call.onDone ∨ route ∈ call.onError) := by
    unfold callRoutes
    cases state.call <;> simp
  rw [routes, List.mem_append, listed, called]

variable {definition : Definition} {id : String} {state : State}

theorem targetViolations_eq_nil : state.targetViolations definition id = [] ↔
    ∀ route ∈ state.routes, definition.states.contains route.target = true := by
  simp [targetViolations]

theorem finalViolations_eq_nil : state.finalViolations id = [] ↔
    (state.isFinal = true → (∀ routes ∈ state.on.values, routes = []) ∧ state.raise = none ∧ state.call = none) := by
  unfold finalViolations
  split
  · rename_i final
    simp [final, reportIf_eq_nil]
  · rename_i proceeds
    simp [proceeds]

theorem raiseViolations_eq_nil : state.raiseViolations id = [] ↔ ∀ r, state.raise = some r →
    (∃ route ∈ state.candidates r.kind, route.guard = none) ∧ state.call = none := by
  unfold raiseViolations
  cases raises : state.raise with
  | none => simp
  | some r =>
    have guarded : (state.candidates r.kind).all (fun route => route.guard.isSome) = false ↔
        ∃ route ∈ state.candidates r.kind, route.guard = none := by
      simp [List.all_eq_false]
    dsimp only
    split
    · rename_i empty
      simp [List.isEmpty_iff.1 empty]
    · simp only [List.append_eq_nil_iff, reportIf_eq_nil, guarded]
      simp

theorem callViolations_eq_nil : state.callViolations id = [] ↔
    ∀ c, state.call = some c → c.onDone ≠ [] ∧ c.onError ≠ [] := by
  unfold callViolations
  cases called : state.call with
  | none => simp
  | some call => simp [reportIf_eq_nil]

theorem violations_eq_nil : state.violations definition id = [] ↔ state.WellFormed definition := by
  simp only [violations, List.append_eq_nil_iff, targetViolations_eq_nil, finalViolations_eq_nil,
    raiseViolations_eq_nil, callViolations_eq_nil]
  constructor
  · rintro ⟨⟨⟨targets, final⟩, raise⟩, call⟩
    exact ⟨targets, final, raise, call⟩
  · rintro ⟨targets, final, raise, call⟩
    exact ⟨⟨⟨targets, final⟩, raise⟩, call⟩

end State

theorem graphViolations_eq_nil {definition : Definition} :
    definition.graphViolations = [] ↔ definition.WellFormed := by
  have states : definition.states.entries.flatMap (fun e => e.2.violations definition e.1) = [] ↔
      ∀ id state, definition.state? id = some state → state.WellFormed definition := by
    rw [List.flatMap_eq_nil_iff]
    constructor
    · intro clear id state found
      exact State.violations_eq_nil.1 (clear (id, state) ((Table.mem_entries_iff _ _ _).2 found))
    · rintro sound ⟨id, state⟩ mem
      exact State.violations_eq_nil.2 (sound id state ((Table.mem_entries_iff _ _ _).1 mem))
  unfold graphViolations
  rw [List.append_eq_nil_iff, List.append_eq_nil_iff, reportIf_eq_nil, states]
  simp only [Bool.not_eq_false', Option.toList_eq_nil_iff, Option.map_eq_none_iff]
  constructor
  · rintro ⟨⟨initial, states⟩, bounded⟩
    exact ⟨initial, states, bounded⟩
  · rintro ⟨initial, states, bounded⟩
    exact ⟨⟨initial, states⟩, bounded⟩

end DialMenu.Definition
