import DialMenu.Proofs.Compilation
import DialMenu.Proofs.Definition.UnboundedChain
import DialMenu.Proofs.Interpreter.Refinement
import DialMenu.Rehearsal.Notebook

/-!
The checks of a definition are enough for the turns of its machine. Targets exist, so no walk leaves the machine;
every raise has a candidate without a guard; and the automatic hops of a walk follow edges of a graph without
cycles, so no state comes round. Only the outcome of a service call may find no route.
-/

namespace DialMenu

variable {C σ : Type} {b : Bindings C σ} {definition : Definition} {machine : Machine C σ}

theorem Bindings.wellFormed_of_resolve (resolved : b.resolve definition = .ok machine) :
    definition.WellFormed ∧ b.compile definition = .ok machine := by
  unfold resolve at resolved
  split at resolved
  · rename_i clear
    have graph := (List.append_eq_nil_iff.1 clear).1
    exact ⟨Definition.graphViolations_eq_nil.1 graph, resolved⟩
  · cases resolved

/-- Every state of a compiled machine has a declaration. -/
theorem Bindings.exists_declared (compiled : b.compile definition = .ok machine) {id : String}
    {state : Machine.State C σ} (found : machine.state? id = some state) :
    ∃ source, definition.state? id = some source ∧ source.Compiled b state := by
  have related := compiled_of_compile compiled id
  rw [found] at related
  cases declared : definition.state? id with
  | none =>
    rw [declared] at related
    cases related
  | some source =>
    rw [declared] at related
    cases related with
    | some here => exact ⟨source, rfl, here⟩

/-- Every declared state is a state of the compiled machine. -/
theorem Bindings.contains_of_declared (compiled : b.compile definition = .ok machine) {id : String}
    (declared : definition.states.contains id = true) : ∃ state, machine.state? id = some state := by
  have related := compiled_of_compile compiled id
  obtain ⟨source, found⟩ := Option.isSome_iff_exists.1 declared
  unfold Definition.state? at related
  rw [found] at related
  cases found : machine.state? id with
  | none =>
    rw [found] at related
    cases related
  | some state => exact ⟨state, rfl⟩

variable {state : Machine.State C σ} {source : Definition.State}

/-- A state with an effect that is not final goes on by itself. -/
theorem Definition.State.Compiled.isAutomatic (compiled : source.Compiled b state) (proceeds : state.kind ≠ .final)
    (acts : state.raise.isSome ∨ state.call.isSome) : source.isAutomatic = true := by
  rw [Definition.State.isAutomatic, ← compiled.isFinal_eq, Machine.State.isFinal_eq_false_iff.2 proceeds,
    ← compiled.isSome_call, ← compiled.raise]
  simpa using acts

/-- A raise of a well-formed definition has a candidate without a guard. -/
theorem not_noneEligible_of_raise {context : C} {judged : Event} {r : EntryRaise} (sound : source.WellFormed definition)
    (compiled : source.Compiled b state) (raises : state.raise = some r) :
    ¬ Transition.NoneEligible (state.on r.kind) context judged := by
  intro refused
  obtain ⟨⟨route, inside, free⟩, -⟩ := sound.raise r (compiled.raise ▸ raises)
  obtain ⟨t, mem, here⟩ := Route.Compiled.exists_of_mem_routes (compiled.on r.kind) inside
  have unguarded : t.guard = none := by simpa [free] using here.guard
  exact refused t mem (Transition.admits_of_free unguarded context judged)

section Walk

variable [Context C] {i : Interpreter C σ} {now : Instant} {event : Event} {start p : Position C σ}
  {hops : List Hop}

/-- The candidates of an effect come from the routes by which the state goes on by itself. -/
theorem Effect.exists_route {trigger : Trigger} {context : C} {judged : Event} {env : σ} {t : Transition C}
    (effect : Effect i event p state trigger context judged env) (compiled : source.Compiled b state)
    (mem : t ∈ state.designated trigger) : ∃ route ∈ source.automaticRoutes, route.Compiled b t := by
  unfold Definition.State.automaticRoutes
  rw [← compiled.raise]
  cases effect with
  | raise raises =>
    rw [raises]
    exact Route.Compiled.exists_of_mem (compiled.on _) mem
  | done quiet calls answered =>
    obtain ⟨call, declared, same⟩ := compiled.exists_call calls
    rw [Machine.State.designated, calls] at mem
    obtain ⟨route, inside, here⟩ := Route.Compiled.exists_of_mem same.onDone mem
    refine ⟨route, ?_, here⟩
    rw [quiet, Definition.State.callRoutes, declared]
    exact List.mem_append_left _ inside
  | error quiet calls rejected =>
    obtain ⟨call, declared, same⟩ := compiled.exists_call calls
    rw [Machine.State.designated, calls] at mem
    obtain ⟨route, inside, here⟩ := Route.Compiled.exists_of_mem same.onError mem
    refine ⟨route, ?_, here⟩
    rw [quiet, Definition.State.callRoutes, declared]
    exact List.mem_append_right _ inside

theorem Effect.acts {trigger : Trigger} {context : C} {judged : Event} {env : σ}
    (effect : Effect i event p state trigger context judged env) :
    state.raise.isSome ∨ state.call.isSome := by
  cases effect with
  | raise raises => exact .inl (raises ▸ rfl)
  | done _ calls _ | error _ calls _ => exact .inr (calls ▸ rfl)

/-- A walk of a well-formed definition stays inside the machine. -/
theorem Walk.exists_state (walk : Walk i now event start hops p) (sound : definition.WellFormed)
    (compiled : b.compile definition = .ok i.machine) : ∃ state, i.machine.state? p.state = some state := by
  have target {id : String} {source : Definition.State} {route : Route} {t : Transition C}
      (declared : definition.state? id = some source) (mem : route ∈ source.routes) (here : route.Compiled b t) :
      ∃ state, i.machine.state? t.target = some state := by
    rw [here.target]
    exact Bindings.contains_of_declared compiled ((sound.states id source declared).targets route mem)
  cases walk with
  | @event state t after found first ran =>
    obtain ⟨source, declared, same⟩ := Bindings.exists_declared compiled found
    obtain ⟨route, inside, here⟩ := Route.Compiled.exists_of_mem (same.on event.kind) first.mem
    exact target declared (Definition.State.candidates_subset_routes inside) here
  | @automatic hops p state trigger context judged env t after walk found proceeds fresh effect first ran =>
    obtain ⟨source, declared, same⟩ := Bindings.exists_declared compiled found
    obtain ⟨route, inside, here⟩ := effect.exists_route same first.mem
    exact target declared (Definition.State.automaticRoutes_subset_routes inside) here

/-- The states that a walk left by itself lead to the state it stands in, if that one goes on by itself too. -/
theorem Walk.transGen_of_automatic (walk : Walk i now event start hops p)
    (compiled : b.compile definition = .ok i.machine) {hop : Hop} (mem : hop ∈ hops) (made : hop.isAutomatic = true)
    (goes : definition.Automatic p.state) :
    Relation.TransGen (Cycle.Successor definition.automaticTargets) p.state hop.origin := by
  induction walk with
  | event =>
    cases List.mem_singleton.1 mem
    simp [Hop.isAutomatic, Trigger.isRaise, Trigger.isOutcome] at made
  | @automatic hops p state trigger context judged env t after walk found proceeds fresh effect first ran ih =>
    obtain ⟨source, declared, same⟩ := Bindings.exists_declared compiled found
    obtain ⟨route, inside, here⟩ := effect.exists_route same first.mem
    have edge : Cycle.Successor definition.automaticTargets t.target p.state :=
      Definition.mem_automaticTargets_iff.2 ⟨source, declared, ⟨route, inside, here.target.symm⟩, goes⟩
    rcases List.mem_append.1 mem with earlier | last
    · have before : definition.Automatic p.state := ⟨source, declared, same.isAutomatic proceeds effect.acts⟩
      exact (Relation.TransGen.single edge).trans (ih earlier before)
    · cases List.mem_singleton.1 last
      exact .single edge

/-- No state of a well-formed definition comes round in a walk. -/
theorem Walk.not_spent (walk : Walk i now event start hops p) (sound : definition.WellFormed)
    (compiled : b.compile definition = .ok i.machine) (found : i.machine.state? p.state = some state)
    (proceeds : state.kind ≠ .final) (acts : state.raise.isSome ∨ state.call.isSome) : ¬ Spent hops p.state := by
  rintro ⟨hop, mem, origin, made⟩
  obtain ⟨source, declared, same⟩ := Bindings.exists_declared compiled found
  have way := walk.transGen_of_automatic compiled mem made ⟨source, declared, same.isAutomatic proceeds acts⟩
  rw [origin] at way
  exact sound.not_transGen_self declared way

/-- What a turn owes to the checks of its definition. It has no place to go only where the service of the state
was called last and no candidate for the outcome is eligible: the state is in the machine, does not raise and was
not left before. A turn that made a hop waits in a state that does nothing by itself, and finishes in a final one.
No state is left by itself twice. -/
structure Rest.Adequate (i : Interpreter C σ) (now : Instant) (event : Event) (start : Position C σ)
    (rest : Rest C σ) : Prop where
  unresolved : rest.disposition = .unresolved →
    ∃ stopped call env, i.machine.state? rest.state = some stopped ∧ stopped.isFinal = false ∧
      stopped.raise = none ∧ stopped.call = some call ∧ ¬ Spent rest.trace.hops rest.state ∧
      Walk i now event start rest.trace.hops ⟨rest.state, rest.context, env⟩ ∧
      rest.env = (call.service rest.context event env).env ∧
      match (call.service rest.context event env).result with
      | .ok value => Transition.NoneEligible call.onDone rest.context (event.withOutcome (.success value))
      | .error err => Transition.NoneEligible call.onError rest.context (event.withOutcome (.failure (i.classify err)))
  waiting : rest.trace.hops ≠ [] → rest.disposition = .waiting →
    ∃ stopped, i.machine.state? rest.state = some stopped ∧ stopped.isFinal = false ∧ stopped.raise = none ∧
      stopped.call = none
  finished : rest.trace.hops ≠ [] → rest.disposition = .finished →
    ∃ stopped, i.machine.state? rest.state = some stopped ∧ stopped.isFinal = true
  distinct : ((rest.trace.hops.filter Hop.isAutomatic).map Hop.origin).Nodup

/-- The end of a walk of a well-formed definition. -/
theorem Ending.adequate {rest : Rest C σ} (sound : definition.WellFormed)
    (compiled : b.compile definition = .ok i.machine) (walk : Walk i now event start rest.trace.hops p)
    (ending : Ending i event rest.trace.hops p rest.disposition rest.position) :
    rest.Adequate i now event start := by
  have distinct := walk.nodup_origins
  obtain ⟨id, context, disposition, trace, env⟩ := rest
  dsimp only [Rest.position] at walk ending
  cases ending with
  | outside unknown =>
    obtain ⟨state, found⟩ := walk.exists_state sound compiled
    rw [unknown] at found
    cases found
  | final found final => exact ⟨nofun, nofun, fun _ _ => ⟨_, found, Machine.State.isFinal_iff.2 final⟩, distinct⟩
  | waiting found proceeds quiet silent =>
    have proceeds := Machine.State.isFinal_eq_false_iff.2 proceeds
    exact ⟨nofun, fun _ _ => ⟨_, found, proceeds, quiet, silent⟩, nofun, distinct⟩
  | again found proceeds acts spent => exact absurd spent (walk.not_spent sound compiled found proceeds acts)
  | unrouted found proceeds fresh effect refused =>
    refine ⟨fun _ => ?_, nofun, nofun, distinct⟩
    have proceeds := Machine.State.isFinal_eq_false_iff.2 proceeds
    cases effect with
    | raise raises =>
      obtain ⟨source, declared, same⟩ := Bindings.exists_declared compiled found
      exact absurd refused (not_noneEligible_of_raise (sound.states _ source declared) same raises)
    | done quiet calls answered =>
      refine ⟨_, _, p.env, found, proceeds, quiet, calls, fresh, walk, rfl, ?_⟩
      rw [Machine.State.designated, calls] at refused
      simp only [answered]
      exact refused
    | error quiet calls rejected =>
      refine ⟨_, _, p.env, found, proceeds, quiet, calls, fresh, walk, rfl, ?_⟩
      rw [Machine.State.designated, calls] at refused
      simp only [rejected]
      exact refused

end Walk

/-- A turn of a machine that passed the checks has nowhere to go only if its last service call did not. -/
theorem step_adequate_of_resolve [Context C] (i : Interpreter C σ) (resolved : b.resolve definition = .ok i.machine)
    (now : Instant) (state : String) (known : i.machine.contains state = true) (context : C) (event : Event) (env : σ) :
    (i.step now state context event env).Adequate i now event ⟨state, context, env⟩ := by
  obtain ⟨sound, compiled⟩ := Bindings.wellFormed_of_resolve resolved
  rcases i.step_cases now state context event env with
    ⟨unknown, -⟩ | ⟨current, found, -, same⟩ | ⟨current, last, -, -, walk, ending⟩
  · simp [Machine.contains, unknown] at known
  · rw [same]
    exact ⟨by cases current.isFinal <;> nofun, fun hops => absurd rfl hops, fun hops => absurd rfl hops, by simp⟩
  · exact ending.adequate sound compiled walk

/-- A menu whose only call is rejected, and whose only candidate for that is refused by its guard. -/
def stuckDefinition : Definition where
  id := "demo"
  initial := "menu"
  states := ⟨[
    ("loading", { call := some {
      service := "load"
      onDone := [{ target := "menu" }]
      onError := [{ target := "menu", guard := some "never" }] } }),
    ("menu", { on := ⟨[(.transit, [{ target := "loading" }])], by decide⟩ })], by decide⟩

def stuckBindings : Bindings Rehearsal.Bare Nat :=
  (Bindings.empty.withGuard "never" fun _ _ => false).withService "load" fun _ _ calls =>
    { result := .error .accountBlocked, env := calls + 1 }

def stuckInterpreter : Interpreter Rehearsal.Bare Nat where
  machine :=
    match stuckBindings.resolve stuckDefinition with
    | .ok machine => machine
    | .error _ => { id := "", initial := "", states := .empty }

theorem step_adequate_of_resolve_stuck :
    let event : Event := { kind := .transit, input := "1" }
    stuckBindings.resolve stuckDefinition = .ok stuckInterpreter.machine ∧
      stuckInterpreter.machine.contains "menu" = true ∧
      (stuckInterpreter.step .epoch "menu" {} event 0).disposition = .unresolved ∧
      (stuckInterpreter.step .epoch "menu" {} event 0).Adequate stuckInterpreter .epoch event ⟨"menu", {}, 0⟩ := by
  intro event
  have resolved : stuckBindings.resolve stuckDefinition = .ok stuckInterpreter.machine := rfl
  have known : stuckInterpreter.machine.contains "menu" = true := rfl
  have stuck : (stuckInterpreter.step .epoch "menu" {} event 0).disposition = .unresolved := by decide +kernel
  exact ⟨resolved, known, stuck, step_adequate_of_resolve stuckInterpreter resolved .epoch "menu" known {} event 0⟩

end DialMenu
