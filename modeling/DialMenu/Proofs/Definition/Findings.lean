import DialMenu.Definition.Report
import DialMenu.Proofs.Definition.UnboundedChain
import DialMenu.Proofs.Resolution

/-!
What the check of a definition finds: every defect and nothing else, so that it finds nothing exactly in a definition
without a flaw. A violation belongs to one state, so its report is read off that state alone.
-/

namespace DialMenu

/-- A table is listed by going through all keys in their order. -/
theorem Table.entries_eq_filterMap {κ α : Type} [Ord κ] [DecidableEq κ] [Std.TransOrd κ] [Std.LawfulEqOrd κ]
    (table : Table κ α) {keys : List κ} (ascend : keys.Pairwise fun a b => compare a b = .lt) (all : ∀ k, k ∈ keys) :
    table.entries = keys.filterMap fun k => (table.get? k).map (Prod.mk k) := by
  have mem_iff (k : κ) (v : α) :
      (k, v) ∈ keys.filterMap (fun k => (table.get? k).map (Prod.mk k)) ↔ table.get? k = some v := by
    simp [List.mem_filterMap, all]
  have sorted : Entries.Sorted (keys.filterMap fun k => (table.get? k).map (Prod.mk k)) := by
    refine List.pairwise_filterMap.2 (ascend.imp fun less entry found entry' found' => ?_)
    obtain ⟨_, -, rfl⟩ := Option.map_eq_some_iff.1 found
    obtain ⟨_, -, rfl⟩ := Option.map_eq_some_iff.1 found'
    exact less
  refine table.sorted.ext sorted fun k => ?_
  cases listed : Entries.get? k (keys.filterMap fun k => (table.get? k).map (Prod.mk k)) with
  | some v => exact (mem_iff k v).1 (Entries.mem_of_get?_eq_some listed)
  | none =>
    refine Option.eq_none_iff_forall_ne_some.2 fun v found => ?_
    rw [Entries.get?_eq_some_of_mem sorted ((mem_iff k v).2 found)] at listed
    cases listed

/-- The state at which a violation is reported. -/
def Violation.state? : Violation → Option String
  | missingInitial _ | unboundedChain _ => none
  | unknownTarget id _ | finalWithTransitions id | finalWithEffects id | unhandledRaise id _
  | raiseWithoutFallback id _ | raiseAndCall id | missingDoneRoute id _ | missingErrorRoute id _
  | unresolvedName id _ _ => some id

/-- The names of one kind that a candidate refers to, as often as it does. -/
def Route.named (route : Route) : NameKind → List String
  | .guard => route.guard.toList
  | .action => route.actions
  | .service => []

namespace Definition

namespace State

/-- The candidates of a state: those for each kind of event, and those for both outcomes of its call. -/
def offers (state : State) : List Route :=
  EventKind.all.flatMap state.candidates ++
    match state.call with
    | some call => call.onDone ++ call.onError
    | none => []

/-- The names of one kind that a state refers to, as often as it does. -/
def named (state : State) (kind : NameKind) : List String :=
  state.offers.flatMap (fun route => route.named kind) ++
    match kind with
    | .service => state.call.toList.map Call.service
    | .guard | .action => []

/-- The check comes past the candidates in the order of the kinds. -/
theorem routes_eq_offers (state : State) : state.routes = state.offers := by
  have flat (kinds : List EventKind) :
      ((kinds.filterMap fun kind => (state.on.get? kind).map (Prod.mk kind)).map (·.2)).flatten =
        kinds.flatMap state.candidates := by
    induction kinds with
    | nil => rfl
    | cons kind kinds ih => cases found : state.on.get? kind <;> simp [candidates, found, ih]
  have ascend : EventKind.all.Pairwise fun a b => compare a b = .lt := by decide
  have listed := state.on.entries_eq_filterMap ascend fun kind => by cases kind <;> decide
  rw [routes, Table.values, listed, flat]
  rfl

variable {definition : Definition} {names : Names} {id : String} {state : State} {violation : Violation}

theorem mem_targetViolations_iff : violation ∈ state.targetViolations definition id ↔
    ∃ route ∈ state.offers, definition.state? route.target = none ∧ violation = .unknownTarget id route.target := by
  rw [targetViolations, routes_eq_offers]
  simp [Table.contains, Definition.state?, and_assoc, @eq_comm _ violation]

theorem any_nonempty_iff : (state.on.values.any fun routes => !routes.isEmpty) = true ↔
    ∃ event, state.candidates event ≠ [] := by
  rw [List.any_eq_true]
  constructor
  · rintro ⟨routes, listed, nonempty⟩
    obtain ⟨⟨event, _⟩, mem, rfl⟩ := List.mem_map.1 listed
    refine ⟨event, ?_⟩
    rw [candidates, (Table.mem_entries_iff _ _ _).1 mem]
    simpa using nonempty
  · rintro ⟨event, nonempty⟩
    obtain ⟨route, mem⟩ := List.exists_mem_of_ne_nil _ nonempty
    obtain ⟨routes, listed, inside⟩ := mem_candidates_iff.1 mem
    exact ⟨routes, List.mem_map.2 ⟨_, listed, rfl⟩, by simpa using List.ne_nil_of_mem inside⟩

theorem mem_finalViolations_iff : violation ∈ state.finalViolations id ↔ state.isFinal = true ∧
    ((∃ event, state.candidates event ≠ []) ∧ violation = .finalWithTransitions id ∨
      (state.raise ≠ none ∨ state.call ≠ none) ∧ violation = .finalWithEffects id) := by
  have acts : (state.raise.isSome || state.call.isSome) = true ↔ state.raise ≠ none ∨ state.call ≠ none := by
    simp [Option.isSome_iff_ne_none]
  unfold finalViolations
  split
  · rename_i final
    simp only [List.mem_append, mem_reportIf, any_nonempty_iff, acts, final, true_and]
  · rename_i proceeds
    simp [proceeds]

theorem mem_raiseViolations_iff : violation ∈ state.raiseViolations id ↔ ∃ r, state.raise = some r ∧
    (state.candidates r.kind = [] ∧ violation = .unhandledRaise id r.kind ∨
      (state.candidates r.kind ≠ [] ∧ ∀ route ∈ state.candidates r.kind, route.guard ≠ none) ∧
        violation = .raiseWithoutFallback id r.kind ∨
      state.call ≠ none ∧ violation = .raiseAndCall id) := by
  unfold raiseViolations
  cases state.raise with
  | none => simp
  | some r =>
    have guarded : (state.candidates r.kind).all (fun route => route.guard.isSome) = true ↔
        ∀ route ∈ state.candidates r.kind, route.guard ≠ none := by
      simp [List.all_eq_true, Option.isSome_iff_ne_none]
    dsimp only
    split
    · rename_i empty
      simp [List.isEmpty_iff.1 empty, mem_reportIf, Option.isSome_iff_ne_none]
    · rename_i offered
      have offered : state.candidates r.kind ≠ [] := fun empty => offered (List.isEmpty_iff.2 empty)
      simp only [List.mem_append, mem_reportIf, guarded, Option.isSome_iff_ne_none]
      simp [offered]

theorem mem_callViolations_iff : violation ∈ state.callViolations id ↔ ∃ call, state.call = some call ∧
    (call.onDone = [] ∧ violation = .missingDoneRoute id call.service ∨
      call.onError = [] ∧ violation = .missingErrorRoute id call.service) := by
  unfold callViolations
  cases state.call <;> simp [mem_reportIf]

/-- A defect of one state: of its part of the graph, or a name that is bound to nothing. -/
inductive Defect (definition : Definition) (names : Names) (id : String) (state : State) : Violation → Prop
  | unknownTarget {route : Route} : route ∈ state.offers → definition.state? route.target = none →
      Defect definition names id state (.unknownTarget id route.target)
  | finalWithTransitions {event : EventKind} : state.isFinal = true → state.candidates event ≠ [] →
      Defect definition names id state (.finalWithTransitions id)
  | finalWithEffects : state.isFinal = true → state.raise ≠ none ∨ state.call ≠ none →
      Defect definition names id state (.finalWithEffects id)
  | unhandledRaise {r : EntryRaise} : state.raise = some r → state.candidates r.kind = [] →
      Defect definition names id state (.unhandledRaise id r.kind)
  | raiseWithoutFallback {r : EntryRaise} : state.raise = some r → state.candidates r.kind ≠ [] →
      (∀ route ∈ state.candidates r.kind, route.guard ≠ none) →
      Defect definition names id state (.raiseWithoutFallback id r.kind)
  | raiseAndCall : state.raise ≠ none → state.call ≠ none → Defect definition names id state (.raiseAndCall id)
  | missingDoneRoute {call : Call} : state.call = some call → call.onDone = [] →
      Defect definition names id state (.missingDoneRoute id call.service)
  | missingErrorRoute {call : Call} : state.call = some call → call.onError = [] →
      Defect definition names id state (.missingErrorRoute id call.service)
  | unresolvedName {kind : NameKind} {name : String} : state.Uses kind name → names.binds kind name = false →
      Defect definition names id state (.unresolvedName id kind name)

/-- What is reported of a state: the defects of the graph, and the names without a binding. -/
def report (definition : Definition) (names : Names) (id : String) (state : State) : List Violation :=
  state.violations definition id ++ state.unresolved names id

theorem mem_report_iff : violation ∈ state.report definition names id ↔
    violation ∈ state.targetViolations definition id ∨ violation ∈ state.finalViolations id ∨
      violation ∈ state.raiseViolations id ∨ violation ∈ state.callViolations id ∨
      violation ∈ state.unresolved names id := by
  simp only [report, violations, List.mem_append, or_assoc]

/-- A state is reported for its defects. -/
theorem mem_report_iff_defect :
    violation ∈ state.report definition names id ↔ state.Defect definition names id violation := by
  rw [mem_report_iff, mem_targetViolations_iff, mem_finalViolations_iff, mem_raiseViolations_iff,
    mem_callViolations_iff, mem_unresolved_iff]
  constructor
  · rintro (⟨route, offered, undefined, rfl⟩ | ⟨final, ⟨⟨event, offered⟩, rfl⟩ | ⟨acts, rfl⟩⟩ |
      ⟨r, raises, ⟨empty, rfl⟩ | ⟨⟨offered, guarded⟩, rfl⟩ | ⟨calls, rfl⟩⟩ |
      ⟨call, calls, ⟨none, rfl⟩ | ⟨none, rfl⟩⟩ | ⟨kind, name, uses, unbound, rfl⟩)
    · exact .unknownTarget offered undefined
    · exact .finalWithTransitions final offered
    · exact .finalWithEffects final acts
    · exact .unhandledRaise raises empty
    · exact .raiseWithoutFallback raises offered guarded
    · exact .raiseAndCall (by simp [raises]) calls
    · exact .missingDoneRoute calls none
    · exact .missingErrorRoute calls none
    · exact .unresolvedName uses unbound
  · intro defect
    cases defect with
    | unknownTarget offered undefined => exact .inl ⟨_, offered, undefined, rfl⟩
    | finalWithTransitions final offered => exact .inr (.inl ⟨final, .inl ⟨⟨_, offered⟩, rfl⟩⟩)
    | finalWithEffects final acts => exact .inr (.inl ⟨final, .inr ⟨acts, rfl⟩⟩)
    | unhandledRaise raises empty => exact .inr (.inr (.inl ⟨_, raises, .inl ⟨empty, rfl⟩⟩))
    | raiseWithoutFallback raises offered guarded =>
      exact .inr (.inr (.inl ⟨_, raises, .inr (.inl ⟨⟨offered, guarded⟩, rfl⟩)⟩))
    | raiseAndCall raises calls =>
      obtain ⟨r, raises⟩ := Option.ne_none_iff_exists'.1 raises
      exact .inr (.inr (.inl ⟨r, raises, .inr (.inr ⟨calls, rfl⟩)⟩))
    | missingDoneRoute calls none => exact .inr (.inr (.inr (.inl ⟨_, calls, .inl ⟨none, rfl⟩⟩)))
    | missingErrorRoute calls none => exact .inr (.inr (.inr (.inl ⟨_, calls, .inr ⟨none, rfl⟩⟩)))
    | unresolvedName uses unbound => exact .inr (.inr (.inr (.inr ⟨_, _, uses, unbound, rfl⟩)))

/-- Every defect of a state is reported at that state. -/
theorem Defect.state?_eq (defect : state.Defect definition names id violation) : violation.state? = some id := by
  cases defect <;> rfl

end State

/-- A defect of the definition, apart from chains without end. -/
inductive Defect (definition : Definition) (names : Names) : Violation → Prop
  | missingInitial : definition.state? definition.initial = none →
      Defect definition names (.missingInitial definition.initial)
  | state {id : String} {state : State} {violation : Violation} : definition.state? id = some state →
      state.Defect definition names id violation → Defect definition names violation

/-- What the definition of a machine has to be. -/
structure Flawless (definition : Definition) (names : Names) : Prop where
  initial : ∃ state, definition.state? definition.initial = some state
  targets : ∀ id state, definition.state? id = some state → ∀ route ∈ state.offers,
    ∃ target, definition.state? route.target = some target
  final : ∀ id state, definition.state? id = some state → state.isFinal = true →
    (∀ event, state.candidates event = []) ∧ state.raise = none ∧ state.call = none
  raise : ∀ id state r, definition.state? id = some state → state.raise = some r →
    (∃ route ∈ state.candidates r.kind, route.guard = none) ∧ state.call = none
  call : ∀ id state call, definition.state? id = some state → state.call = some call →
    call.onDone ≠ [] ∧ call.onError ≠ []
  bounded : ∀ id, ¬ Relation.TransGen definition.Leads id id
  bound : ∀ kind name, definition.Uses kind name → names.binds kind name = true

variable {definition : Definition} {names : Names} {id : String} {state : State} {violation : Violation}

/-- The parts of the report: the beginning, the states one by one, and a chain. -/
theorem mem_violations_iff : violation ∈ definition.violations names ↔ definition.Defect names violation ∨
    ∃ cycle, definition.unboundedChain? = some cycle ∧ violation = .unboundedChain cycle := by
  have parts : violation ∈ definition.violations names ↔
      ((definition.state? definition.initial = none ∧ violation = .missingInitial definition.initial) ∨
        ∃ id state, definition.state? id = some state ∧ violation ∈ state.report definition names id) ∨
      ∃ cycle, definition.unboundedChain? = some cycle ∧ violation = .unboundedChain cycle := by
    simp only [violations, graphViolations, nameViolations, State.report, List.mem_append, mem_reportIf,
      List.mem_flatMap, Prod.exists, Option.mem_toList, Table.mem_entries_iff, Option.map_eq_some_iff]
    simp [Table.contains, state?, @eq_comm _ violation, and_or_left, exists_or, or_assoc, or_left_comm, or_comm]
  rw [parts]
  refine or_congr_left ⟨?_, fun defect => ?_⟩
  · rintro (⟨undefined, rfl⟩ | ⟨id, state, found, here⟩)
    · exact .missingInitial undefined
    · exact .state found (State.mem_report_iff_defect.1 here)
  · cases defect with
    | missingInitial undefined => exact .inl ⟨undefined, rfl⟩
    | state found here => exact .inr ⟨_, _, found, State.mem_report_iff_defect.2 here⟩

theorem unboundedChain?_eq_none_iff :
    definition.unboundedChain? = none ↔ ∀ id, ¬ Relation.TransGen definition.Leads id id := by
  have edges : (fun id target => target ∈ definition.automaticTargets id) = definition.Leads :=
    funext fun id => funext fun target => propext mem_automaticTargets_iff_leads
  constructor
  · intro clear id back
    obtain ⟨_, first, _⟩ := Relation.TransGen.head'_iff.1 back
    obtain ⟨source, _, declared, _, _⟩ := first.route
    have acc := Cycle.acc_of_find?_eq_none (automaticTargets_closed definition) clear (mem_keys_of_state? declared)
    rw [← edges] at back
    exact Cycle.not_transGen_self acc (Relation.transGen_swap.2 back)
  · intro bounded
    cases found : definition.unboundedChain? with
    | none => rfl
    | some cycle =>
      have closed := Cycle.isCycle_of_find? (automaticTargets_closed definition) found
      rw [edges] at closed
      obtain ⟨id, back⟩ := closed.exists_transGen
      exact absurd back (bounded id)

theorem wellFormed_and_bound_iff_flawless :
    (definition.WellFormed ∧ ∀ kind name, definition.Uses kind name → names.binds kind name = true) ↔
      definition.Flawless names := by
  have defined (id : String) : definition.states.contains id = true ↔ ∃ state, definition.state? id = some state :=
    Option.isSome_iff_exists
  have idle (state : State) : (∀ routes ∈ state.on.values, routes = []) ↔ ∀ event, state.candidates event = [] := by
    simpa using not_congr (@State.any_nonempty_iff state)
  constructor
  · rintro ⟨sound, bound⟩
    refine ⟨(defined _).1 sound.initial, fun id state found route offered => ?_, fun id state found final => ?_,
      fun id state r found => (sound.states id state found).raise r,
      fun id state call found => (sound.states id state found).call call,
      unboundedChain?_eq_none_iff.1 sound.bounded, bound⟩
    · exact (defined _).1 ((sound.states id state found).targets route (state.routes_eq_offers ▸ offered))
    · have quiet := (sound.states id state found).final final
      rwa [idle] at quiet
  · intro flawless
    refine ⟨⟨(defined _).2 flawless.initial, fun id state found => ⟨fun route offered => ?_, fun final => ?_,
      fun r => flawless.raise id state r found, fun call => flawless.call id state call found⟩,
      unboundedChain?_eq_none_iff.2 flawless.bounded⟩, flawless.bound⟩
    · exact (defined _).2 (flawless.targets id state found route (state.routes_eq_offers ▸ offered))
    · rw [idle]
      exact flawless.final id state found final

theorem violations_eq_nil_iff : definition.violations names = [] ↔ definition.Flawless names := by
  rw [violations, List.append_eq_nil_iff, graphViolations_eq_nil, nameViolations_eq_nil,
    wellFormed_and_bound_iff_flawless]

theorem exists_defect_of_mem (mem : violation ∈ definition.violations names) (place : violation.state? = some id) :
    ∃ state, definition.state? id = some state ∧ state.Defect definition names id violation := by
  rcases mem_violations_iff.1 mem with defect | ⟨cycle, -, rfl⟩
  · cases defect with
    | missingInitial => cases place
    | state found here =>
      obtain rfl := Option.some.inj (here.state?_eq.symm.trans place)
      exact ⟨_, found, here⟩
  · cases place

end Definition

end DialMenu
