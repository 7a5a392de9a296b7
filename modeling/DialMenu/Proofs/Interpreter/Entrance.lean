import DialMenu.Proofs.Interpreter.Adequacy

/-!
Machines whose services stand behind gates: states from which alone, and only by a keystroke forward, a state that
calls a service is entered. Then a turn calls at most one service, right behind its first hop, on the context and
the environment that the event met; and what only the answer to a call may change stays as it is in any other turn.
-/

namespace DialMenu

variable {C σ V : Type} {b : Bindings C σ} {definition : Definition} {gates reserved : List String}

namespace Definition

/-- The state calls a service when it is entered. -/
def calls (definition : Definition) (id : String) : Bool :=
  (definition.state? id).any fun state => state.call.isSome

/-- A candidate for an event uses no reserved action, and leads to a call only from a gate, by a keystroke forward
and without any action. Neither a raise nor an outcome leads to a call. A rejection uses no reserved action. -/
structure State.Gated (definition : Definition) (gates reserved : List String) (id : String) (state : State) :
    Prop where
  entrance : ∀ e ∈ state.on.entries, ∀ route ∈ e.2, definition.calls route.target = true →
    e.1 = .transit ∧ id ∈ gates ∧ route.actions = []
  actions : ∀ e ∈ state.on.entries, ∀ route ∈ e.2, ∀ name ∈ route.actions, name ∉ reserved
  raise : ∀ r ∈ state.raise, r.kind ≠ .transit
  outcomes : ∀ route ∈ state.callRoutes, definition.calls route.target = false
  rejections : ∀ call ∈ state.call, ∀ route ∈ call.onError, ∀ name ∈ route.actions, name ∉ reserved

instance (definition : Definition) (gates reserved : List String) (id : String) (state : State) :
    Decidable (state.Gated definition gates reserved id) :=
  decidable_of_iff
    ((∀ e ∈ state.on.entries, ∀ route ∈ e.2, definition.calls route.target = true →
        e.1 = .transit ∧ id ∈ gates ∧ route.actions = []) ∧
      (∀ e ∈ state.on.entries, ∀ route ∈ e.2, ∀ name ∈ route.actions, name ∉ reserved) ∧
      (∀ r ∈ state.raise, r.kind ≠ .transit) ∧
      (∀ route ∈ state.callRoutes, definition.calls route.target = false) ∧
      ∀ call ∈ state.call, ∀ route ∈ call.onError, ∀ name ∈ route.actions, name ∉ reserved)
    ⟨fun ⟨entrance, actions, raise, outcomes, rejections⟩ => ⟨entrance, actions, raise, outcomes, rejections⟩,
      fun gated => ⟨gated.entrance, gated.actions, gated.raise, gated.outcomes, gated.rejections⟩⟩

/-- Every call stands behind the gates. -/
def Gated (definition : Definition) (gates reserved : List String) : Prop :=
  ∀ e ∈ definition.states.entries, e.2.Gated definition gates reserved e.1

instance (definition : Definition) (gates reserved : List String) : Decidable (definition.Gated gates reserved) :=
  inferInstanceAs (Decidable (∀ e ∈ definition.states.entries, e.2.Gated definition gates reserved e.1))

theorem Gated.state (gated : definition.Gated gates reserved) {id : String} {source : State}
    (declared : definition.state? id = some source) : source.Gated definition gates reserved id :=
  gated (id, source) ((Table.mem_entries_iff _ _ _).2 declared)

theorem calls_of_declared {id : String} {source : State} (declared : definition.state? id = some source)
    (calling : source.call.isSome = true) : definition.calls id = true := by
  rw [calls, declared]
  exact calling

/-- A call stands neither in a final state nor beside a raise. -/
theorem State.WellFormed.of_call {source : State} (sound : source.WellFormed definition)
    (calling : source.call.isSome = true) : source.isFinal = false ∧ source.raise = none := by
  constructor
  · refine Bool.eq_false_iff.2 fun final => ?_
    rw [(sound.final final).2.2] at calling
    cases calling
  · refine Option.eq_none_iff_forall_ne_some.2 fun r raises => ?_
    rw [(sound.raise r raises).2] at calling
    cases calling

end Definition

/-- Neither a feedback tag nor an action that is not reserved shows in the view. -/
structure Bindings.Reserves [Context C] (b : Bindings C σ) (reserved : List String) (view : C → V) : Prop where
  feedback : ∀ tag context, view (Context.setFeedback tag context) = view context
  action : ∀ name (action : Action C), name ∉ reserved → b.action name = some action →
    ∀ context event, view (action.run context event) = view context

namespace Bindings

/-- A declared state is compiled. -/
theorem exists_compiled {machine : Machine C σ} (compiled : b.compile definition = .ok machine) {id : String}
    {source : Definition.State} (declared : definition.state? id = some source) :
    ∃ state, machine.state? id = some state ∧ source.Compiled b state := by
  have related := compiled_of_compile compiled id
  rw [declared] at related
  generalize machine.state? id = found at related ⊢
  cases related with
  | some here => exact ⟨_, rfl, here⟩

variable [Context C] {name : String} {view : C → V}

theorem Reserves.withGuard (reserves : b.Reserves reserved view) (check : C → Event → Bool) :
    (b.withGuard name check).Reserves reserved view :=
  ⟨reserves.feedback, reserves.action⟩

theorem Reserves.withService (reserves : b.Reserves reserved view) (service : Service C σ) :
    (b.withService name service).Reserves reserved view :=
  ⟨reserves.feedback, reserves.action⟩

theorem Reserves.withAction (reserves : b.Reserves reserved view) {run : C → Event → C}
    (unseen : name ∉ reserved → ∀ context event, view (run context event) = view context) :
    (b.withAction name run).Reserves reserved view := by
  refine ⟨reserves.feedback, fun other action free bound => ?_⟩
  simp only [Bindings.withAction] at bound
  split at bound
  · rename_i same
    cases bound
    exact unseen (same ▸ free)
  · exact reserves.action other action free bound

end Bindings

/-- A declared call is compiled. -/
theorem Definition.State.Compiled.exists_invocation {source : Definition.State} {state : Machine.State C σ}
    (compiled : source.Compiled b state) {call : Call} (declared : source.call = some call) :
    ∃ c, state.call = some c ∧ call.Compiled b c := by
  have related := compiled.call
  rw [declared] at related
  generalize state.call = c at related ⊢
  cases related with
  | some here => exact ⟨_, rfl, here⟩

section Routes

/-- The guard of that name holds under the bindings. Without a guard everything is admitted. -/
def Bindings.admits (b : Bindings C σ) (guard : Option String) (context : C) (event : Event) : Bool :=
  guard.all fun name => (b.guard name).any fun guard => guard.check context event

variable {route : Route} {routes : List Route} {t : Transition C} {ts : List (Transition C)} {context : C}
  {event : Event} {view : C → V}

theorem Route.Compiled.eligible_eq (compiled : route.Compiled b t) :
    t.eligible context event = b.admits route.guard context event := by
  have named := compiled.guard
  unfold Transition.eligible Bindings.admits
  generalize t.guard = guard, route.guard = name at named
  cases name with
  | none =>
    rw [Option.map_none, Option.map_eq_none_iff] at named
    rw [named]
    rfl
  | some name =>
    cases guard with
    | none => cases named
    | some guard =>
      rw [Option.map_some, Option.map_some, Option.some_inj] at named
      simp [← named]

theorem Route.Compiled.admits_iff (compiled : route.Compiled b t) :
    t.Admits context event ↔ b.admits route.guard context event = true := by
  rw [← Transition.eligible_iff, compiled.eligible_eq]

theorem Route.Compiled.noneEligible_iff (compiled : List.Forall₂ (Route.Compiled b) routes ts) :
    Transition.NoneEligible ts context event ↔
      ∀ guard ∈ routes.map Route.guard, b.admits guard context event = false := by
  rw [List.forall_mem_map]
  constructor
  · intro refused route mem
    obtain ⟨t, inside, here⟩ := Route.Compiled.exists_of_mem_routes compiled mem
    rw [← Bool.not_eq_true, ← here.admits_iff]
    exact refused t inside
  · intro refused t mem
    obtain ⟨route, inside, here⟩ := Route.Compiled.exists_of_mem compiled mem
    rw [here.admits_iff, Bool.not_eq_true]
    exact refused route inside

/-- The candidate that is selected is that of the first route that is admitted. -/
theorem Route.Compiled.select (compiled : List.Forall₂ (Route.Compiled b) routes ts) (context : C) (event : Event) :
    Option.Rel (Route.Compiled b) (routes.find? fun route => b.admits route.guard context event)
      (Transition.select ts context event) := by
  unfold Transition.select
  induction compiled with
  | nil => exact .none
  | @cons route t _ _ here _ ih =>
    rw [List.find?_cons, List.find?_cons, here.eligible_eq]
    split
    · exact .some here
    · exact ih

theorem Route.Compiled.exists_firstEligible (compiled : List.Forall₂ (Route.Compiled b) routes ts)
    (admitted : (routes.find? fun route => b.admits route.guard context event) = some route) :
    ∃ t, t.FirstEligible ts context event ∧ route.Compiled b t := by
  have related := Route.Compiled.select compiled context event
  rw [admitted] at related
  generalize selected : Transition.select ts context event = t at related
  cases related with
  | some here => exact ⟨_, Transition.select_eq_some_iff.1 selected, here⟩

/-- The selected candidate is that of the first route whose guard holds. -/
theorem Route.Compiled.exists_first (compiled : List.Forall₂ (Route.Compiled b) routes ts)
    (first : t.FirstEligible ts context event) :
    ∃ route, (routes.find? fun route => b.admits route.guard context event) = some route ∧ route.Compiled b t := by
  have related := Route.Compiled.select compiled context event
  rw [Transition.select_eq_some_iff.2 first] at related
  generalize (routes.find? fun route => b.admits route.guard context event) = route at related
  cases related with
  | some here => exact ⟨_, rfl, here⟩

/-- A candidate is selected where its route is the first eligible one. -/
theorem Route.Compiled.map_target_select (compiled : List.Forall₂ (Route.Compiled b) routes ts) :
    (Transition.select ts context event).map Transition.target =
      (routes.find? fun route => b.admits route.guard context event).map Route.target := by
  have related := Route.Compiled.select compiled context event
  generalize routes.find? (fun route => b.admits route.guard context event) = route,
    Transition.select ts context event = t at related ⊢
  cases related with
  | none => rfl
  | some here => exact congrArg some here.target

/-- Runs the actions of these names in their order. A name without a function does nothing. -/
def Bindings.perform (b : Bindings C σ) (actions : List String) (context : C) (event : Event) : C :=
  actions.foldl (fun context name => (b.action name).elim context fun action => action.run context event) context

@[simp] theorem Bindings.perform_nil (b : Bindings C σ) (context : C) (event : Event) :
    b.perform [] context event = context := rfl

theorem Bindings.perform_singleton {name : String} {action : Action C} (bound : b.action name = some action)
    (context : C) (event : Event) : b.perform [name] context event = action.run context event := by
  simp [perform, bound]

theorem Bindings.Reserves.view_perform [Context C] (reserves : b.Reserves reserved view) {actions : List String}
    (unreserved : ∀ name ∈ actions, name ∉ reserved) (context : C) (event : Event) :
    view (b.perform actions context event) = view context := by
  unfold perform
  induction actions generalizing context with
  | nil => rfl
  | cons name names ih =>
    rw [List.foldl_cons, ih fun other mem => unreserved other (List.mem_cons_of_mem _ mem)]
    cases bound : b.action name with
    | none => rfl
    | some action => exact reserves.action name action (unreserved name List.mem_cons_self) bound context event

/-- A compiled candidate runs the actions that its route names. -/
theorem Route.Compiled.apply_eq (compiled : route.Compiled b t) (context : C) (event : Event) :
    t.apply context event = b.perform route.actions context event := by
  have bound := compiled.actions
  unfold Transition.apply Bindings.perform
  generalize t.actions = actions, route.actions = names at bound
  induction actions generalizing names context with
  | nil =>
    cases List.map_eq_nil_iff.1 bound.symm
    rfl
  | cons action actions ih =>
    cases names with
    | nil => cases bound
    | cons name names =>
      obtain ⟨here, later⟩ := List.cons.inj bound
      rw [List.foldl_cons, List.foldl_cons, ← here]
      exact ih _ _ later

theorem Bindings.Reserves.view_apply [Context C] (reserves : b.Reserves reserved view) (compiled : route.Compiled b t)
    (unreserved : ∀ name ∈ route.actions, name ∉ reserved) (context : C) (event : Event) :
    view (t.apply context event) = view context := by
  rw [compiled.apply_eq, reserves.view_perform unreserved]

theorem Route.Compiled.apply_of_no_actions (compiled : route.Compiled b t) (none : route.actions = []) (context : C)
    (event : Event) : t.apply context event = context := by
  rw [compiled.apply_eq, none, Bindings.perform_nil]

theorem Route.Compiled.apply_of_action (compiled : route.Compiled b t) {name : String} {action : Action C}
    (single : route.actions = [name]) (bound : b.action name = some action) (context : C) (event : Event) :
    t.apply context event = action.run context event := by
  rw [compiled.apply_eq, single, Bindings.perform_singleton bound]

end Routes

section Turn

variable [Context C] {i : Interpreter C σ} {now : Instant} {event : Event} {start p : Position C σ} {hops : List Hop}
  {view : C → V}

/-- The event came forward through a gate, by a candidate that leads to `target`. -/
structure ThroughGate (i : Interpreter C σ) (gates : List String) (event : Event) (start : Position C σ)
    (target : String) : Prop where
  forward : event.kind = .transit
  gate : start.state ∈ gates
  selected : ∃ (current : Machine.State C σ) (t : Transition C), i.machine.state? start.state = some current ∧
    t.FirstEligible (current.on event.kind) start.context event ∧ t.target = target

/-- One service was called, behind a gate, on the context and the environment that the event met. The environment
is the one that it left, and if it rejected then the view is the one before. -/
inductive CalledOnce (i : Interpreter C σ) (gates : List String) (view : C → V) (event : Event)
    (start : Position C σ) (context : C) (env : σ) : Prop
  | intro {id : String} {state : Machine.State C σ} {call : Invocation C σ} :
      ThroughGate i gates event start id → i.machine.state? id = some state → state.call = some call →
      env = (call.service (Context.setFeedback none start.context) event start.env).env →
      (∀ err, (call.service (Context.setFeedback none start.context) event start.env).result = .error err →
        view context = view start.context) → CalledOnce i gates view event start context env

/-- Where a walk stands: before any call, and then only a gate led to a state that calls; or behind the one call,
and no other call comes next. -/
inductive Standing (i : Interpreter C σ) (definition : Definition) (gates : List String) (view : C → V)
    (event : Event) (start p : Position C σ) : Prop
  | before : p.env = start.env → view p.context = view start.context →
      (definition.calls p.state = true →
        ThroughGate i gates event start p.state ∧ p.context = Context.setFeedback none start.context) →
      Standing i definition gates view event start p
  | behind : CalledOnce i gates view event start p.context p.env → definition.calls p.state = false →
      Standing i definition gates view event start p

theorem CalledOnce.of_view_eq {context other : C} {env : σ}
    (called : CalledOnce i gates view event start context env) (same : view other = view context) :
    CalledOnce i gates view event start other env := by
  obtain ⟨through, found, calling, left, rejected⟩ := called
  exact ⟨through, found, calling, left, fun err result => same.trans (rejected err result)⟩

/-- The state that a walk stands in before its call is the one behind the gate. -/
theorem Standing.calledOnce (standing : Standing i definition gates view event start p) {state : Machine.State C σ}
    {call : Invocation C σ} (calling : definition.calls p.state = true) (found : i.machine.state? p.state = some state)
    (called : state.call = some call) {context : C} {env : σ}
    (left : env = (call.service p.context event p.env).env)
    (rejected : ∀ err, (call.service p.context event p.env).result = .error err → view context = view p.context) :
    CalledOnce i gates view event start context env := by
  cases standing with
  | before sameEnv sameView entered =>
    obtain ⟨through, cleared⟩ := entered calling
    rw [sameView, cleared, sameEnv] at rejected
    rw [cleared, sameEnv] at left
    exact ⟨through, found, called, left, rejected⟩
  | behind _ silent =>
    rw [silent] at calling
    cases calling

theorem Walk.standing (walk : Walk i now event start hops p) (gated : definition.Gated gates reserved)
    (compiled : b.compile definition = .ok i.machine) (reserves : b.Reserves reserved view) :
    Standing i definition gates view event start p := by
  induction walk with
  | @event state t after found first ran =>
    obtain rfl := Transition.sequence_iff.1 ran
    obtain ⟨source, declared, same⟩ := Bindings.exists_declared compiled found
    obtain ⟨route, inside, here⟩ := Route.Compiled.exists_of_mem (same.on event.kind) first.mem
    obtain ⟨routes, entry, listed⟩ := Definition.State.mem_candidates_iff.1 inside
    have rules := gated.state declared
    refine .before rfl ?_ fun calling => ?_
    · exact (reserves.view_apply here (rules.actions _ entry route listed) _ _).trans (reserves.feedback none _)
    · rw [here.target] at calling
      obtain ⟨forward, gate, silent⟩ := rules.entrance _ entry route listed calling
      exact ⟨⟨forward, gate, state, t, found, first, rfl⟩, here.apply_of_no_actions silent _ _⟩
  | @automatic hops p state trigger context judged env t after walk found proceeds fresh effect first ran standing =>
    obtain rfl := Transition.sequence_iff.1 ran
    obtain ⟨source, declared, same⟩ := Bindings.exists_declared compiled found
    have rules := gated.state declared
    cases effect with
    | @raise r raises =>
      obtain ⟨route, inside, here⟩ := Route.Compiled.exists_of_mem (same.on r.kind) first.mem
      obtain ⟨routes, entry, listed⟩ := Definition.State.mem_candidates_iff.1 inside
      have back : r.kind ≠ .transit := rules.raise r (same.raise ▸ raises)
      have silent : definition.calls t.target = false := by
        rw [here.target]
        refine Bool.eq_false_iff.2 fun calling => back ?_
        exact (rules.entrance _ entry route listed calling).1
      have unseen := (reserves.view_apply here (rules.actions _ entry route listed)
        (Context.setFeedback r.feedback p.context)
        { kind := r.kind, input := event.input, feedback := r.feedback }).trans (reserves.feedback _ _)
      cases standing with
      | before sameEnv sameView _ =>
        exact .before sameEnv (unseen.trans sameView) fun calling => by simp [silent] at calling
      | behind called _ => exact .behind (called.of_view_eq unseen) silent
    | @done call value quiet calls answered =>
      obtain ⟨spec, declaredCall, compiledCall⟩ := same.exists_call calls
      have mem : t ∈ call.onDone := by simpa [Machine.State.designated, calls] using first.mem
      obtain ⟨route, inside, here⟩ := Route.Compiled.exists_of_mem compiledCall.onDone mem
      have calling := Definition.calls_of_declared declared (by rw [declaredCall]; rfl)
      have silent : definition.calls t.target = false := by
        rw [here.target]
        refine rules.outcomes route ?_
        rw [Definition.State.callRoutes, declaredCall]
        exact List.mem_append_left _ inside
      exact .behind (standing.calledOnce calling found calls rfl fun err rejected => by
        rw [answered] at rejected; cases rejected) silent
    | @error call err quiet calls rejected =>
      obtain ⟨spec, declaredCall, compiledCall⟩ := same.exists_call calls
      have mem : t ∈ call.onError := by simpa [Machine.State.designated, calls] using first.mem
      obtain ⟨route, inside, here⟩ := Route.Compiled.exists_of_mem compiledCall.onError mem
      have calling := Definition.calls_of_declared declared (by rw [declaredCall]; rfl)
      have silent : definition.calls t.target = false := by
        rw [here.target]
        refine rules.outcomes route ?_
        rw [Definition.State.callRoutes, declaredCall]
        exact List.mem_append_right _ inside
      have unseen := reserves.view_apply here (rules.rejections spec declaredCall route inside) p.context
        (event.withOutcome (.failure (i.classify err)))
      exact .behind (standing.calledOnce calling found calls rfl fun _ _ => unseen) silent

/-- A turn leaves the environment and the view alone, or it called one service behind a gate. -/
theorem Interpreter.step_calledOnce (i : Interpreter C σ) (gated : definition.Gated gates reserved)
    (compiled : b.compile definition = .ok i.machine) (reserves : b.Reserves reserved view) (now : Instant)
    (state : String) (context : C) (event : Event) (env : σ) :
    let rest := i.step now state context event env
    (rest.env = env ∧ view rest.context = view context) ∨
      CalledOnce i gates view event ⟨state, context, env⟩ rest.context rest.env := by
  intro rest
  rcases i.step_cases now state context event env with
    ⟨-, same⟩ | ⟨current, -, -, same⟩ | ⟨current, last, -, -, walk, ending⟩
  · exact .inl (by simp [rest, same])
  · exact .inl (by simp [rest, same])
  · have standing := walk.standing gated compiled reserves
    change Ending i event rest.trace.hops last rest.disposition ⟨rest.state, rest.context, rest.env⟩ at ending
    generalize rest.context = context', rest.env = env', rest.state = state',
      rest.disposition = disposition at ending ⊢
    cases ending with
    | outside | final | waiting | again =>
      cases standing with
      | before sameEnv sameView _ => exact .inl ⟨sameEnv, sameView⟩
      | behind called _ => exact .inr called
    | unrouted found proceeds fresh effect refused =>
      obtain ⟨source, declared, same⟩ := Bindings.exists_declared compiled found
      cases effect with
      | raise raises =>
        cases standing with
        | before sameEnv sameView _ => exact .inl ⟨sameEnv, (reserves.feedback _ _).trans sameView⟩
        | behind called _ => exact .inr (called.of_view_eq (reserves.feedback _ _))
      | done quiet calls answered | error quiet calls rejected =>
        obtain ⟨_, declaredCall, -⟩ := same.exists_call calls
        have calling := Definition.calls_of_declared declared (by rw [declaredCall]; rfl)
        exact .inr (standing.calledOnce calling found calls rfl fun _ _ => rfl)

/-- No candidate for the outcome of the call is eligible. -/
def Invocation.Unrouted (i : Interpreter C σ) (call : Invocation C σ) (context : C) (event : Event) (env : σ) :
    Prop :=
  match (call.service context event env).result with
  | .ok value => Transition.NoneEligible call.onDone context (event.withOutcome (.success value))
  | .error err => Transition.NoneEligible call.onError context (event.withOutcome (.failure (i.classify err)))

/-- A call whose outcome finds no route ends the turn. -/
theorem Interpreter.rest_of_unrouted {i : Interpreter C σ} (now : Instant) (run : Run C σ) {state : Machine.State C σ}
    {call : Invocation C σ} (found : i.machine.state? run.state = some state) (proceeds : state.kind ≠ .final)
    (quiet : state.raise = none) (calls : state.call = some call) (may : run.state ∈ run.mayCall)
    (unrouted : call.Unrouted i run.context event run.env) :
    ∃ run', i.next now event run = .rest .unresolved run' := by
  unfold Invocation.Unrouted at unrouted
  simp only [next, found, Machine.State.isFinal_eq_false_iff.2 proceeds, quiet, calls, Interpreter.call, if_pos may]
  cases answered : (call.service run.context event run.env).result with
  | ok | error =>
    rw [answered] at unrouted
    simp only [Bool.false_eq_true, if_false, Transition.select_eq_none_iff.2 unrouted]
    exact ⟨_, rfl⟩

/-- A turn of a known state ends unresolved exactly where an event comes through a gate to a call whose outcome finds
no route. -/
theorem Interpreter.disposition_eq_unresolved_iff (i : Interpreter C σ) (gated : definition.Gated gates reserved)
    (resolved : b.resolve definition = .ok i.machine) (now : Instant) (state : String) (context : C) (event : Event)
    (env : σ) :
    (i.step now state context event env).disposition = .unresolved ↔
      i.machine.contains state = false ∨
        ∃ target stopped call, ThroughGate i gates event ⟨state, context, env⟩ target ∧
          i.machine.state? target = some stopped ∧ stopped.call = some call ∧
          call.Unrouted i (Context.setFeedback none context) event env := by
  obtain ⟨sound, compiled⟩ := Bindings.wellFormed_of_resolve resolved
  have blind : b.Reserves reserved fun _ => () := ⟨fun _ _ => rfl, fun _ _ _ _ _ _ => rfl⟩
  constructor
  · intro stuck
    rcases i.step_cases now state context event env with
      ⟨unknown, -⟩ | ⟨current, found, -, same⟩ | ⟨current, last, -, -, walk, ending⟩
    · exact .inl (by simp [Machine.contains, unknown])
    · rw [same] at stuck
      cases final : current.isFinal <;> simp [final] at stuck
    · obtain ⟨stopped, call, env', found, -, -, calls, -, walk, -, unrouted⟩ :=
        (ending.adequate sound compiled walk).unresolved stuck
      obtain ⟨source, declared, same⟩ := Bindings.exists_declared compiled found
      have calling := Definition.calls_of_declared declared (by rw [← same.isSome_call, calls]; rfl)
      cases walk.standing gated compiled blind with
      | before sameEnv _ entered =>
        obtain ⟨through, cleared⟩ := entered calling
        dsimp only at cleared sameEnv
        rw [cleared, sameEnv] at unrouted
        exact .inr ⟨_, stopped, call, through, found, calls, unrouted⟩
      | behind _ silent => simp [silent] at calling
  · rintro (unknown | ⟨target, stopped, call, through, foundCall, calls, unrouted⟩)
    · have none : i.machine.state? state = none := by simpa [Machine.contains] using unknown
      simp [step, none]
    · obtain ⟨forward, gate, current, t, found, first, rfl⟩ := through
      obtain ⟨source, declared, same⟩ := Bindings.exists_declared compiled found
      obtain ⟨route, inside, here⟩ := Route.Compiled.exists_of_mem (same.on event.kind) first.mem
      obtain ⟨routes, entry, listed⟩ := Definition.State.mem_candidates_iff.1 inside
      obtain ⟨target, declaredCall, sameCall⟩ := Bindings.exists_declared compiled foundCall
      have calling : target.call.isSome = true := by rw [← sameCall.isSome_call, calls]; rfl
      obtain ⟨-, -, silent⟩ := (gated.state declared).entrance _ entry route listed
        (here.target ▸ Definition.calls_of_declared declaredCall calling)
      obtain ⟨proceeds, quiet⟩ := (sound.states _ target declaredCall).of_call calling
      have proceeds := sameCall.kind_ne_final proceeds
      rw [← sameCall.raise] at quiet
      have unchanged := here.apply_of_no_actions silent (Context.setFeedback none context) event
      have may : t.target ∈ i.machine.calling :=
        Machine.mem_calling_iff.2 ⟨stopped, foundCall, proceeds, quiet, by simp [calls]⟩
      simp only [step, found, Transition.select_eq_some_iff.2 first]
      let entered := Run.take ⟨state, Context.setFeedback none context, env, {}, i.machine.raising, i.machine.calling⟩
        now t event (.event event.kind)
      obtain ⟨run', progress⟩ := rest_of_unrouted now entered foundCall proceeds quiet calls may
        (by simpa only [entered, Run.take, unchanged] using unrouted)
      rw [settle_of_rest progress]
      rfl

end Turn

end DialMenu
