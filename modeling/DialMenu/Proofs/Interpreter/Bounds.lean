import DialMenu.Proofs.Interpreter.Completeness
import Mathlib.Data.List.Perm.Subperm

/-!
How long a turn may be, on any machine. Behind the hop of the event come at most one for each state that raises and
one for each state that calls. The calls are counted by an interpreter whose services keep a log: it makes the same
hops, and logs one call for each outcome that led on and one more for an outcome that did not.
-/

namespace DialMenu

variable {C σ : Type}

/-- A call of a service: the state that made it, and the answer. -/
structure LoggedCall where
  state : String
  result : Except ServiceError Value
deriving DecidableEq

section Logged

/-- The service, with its calls logged under a state. -/
def Service.logged (state : String) (service : Service C σ) : Service C (σ × List LoggedCall) :=
  fun context event env =>
    let answer := service context event env.1
    { result := answer.result, env := (answer.env, env.2 ++ [⟨state, answer.result⟩]), elapsed := answer.elapsed }

def Invocation.logged (state : String) (call : Invocation C σ) : Invocation C (σ × List LoggedCall) where
  name := call.name
  service := call.service.logged state
  onDone := call.onDone
  onError := call.onError

def Machine.State.logged (id : String) (state : Machine.State C σ) : Machine.State C (σ × List LoggedCall) where
  id := state.id
  kind := state.kind
  tags := state.tags
  raise := state.raise
  call := state.call.map (Invocation.logged id)
  on := state.on

/-- The interpreter with a log of all calls in its environment. -/
def Interpreter.logged (i : Interpreter C σ) : Interpreter C (σ × List LoggedCall) where
  machine :=
    { id := i.machine.id, initial := i.machine.initial, states := i.machine.states.mapValues Machine.State.logged }
  classify := i.classify

/-- The position, with a log. -/
def Position.withLog (p : Position C σ) (calls : List LoggedCall) : Position C (σ × List LoggedCall) :=
  ⟨p.state, p.context, (p.env, calls)⟩

/-- The rest, with a log. -/
def Rest.withLog (rest : Rest C σ) (calls : List LoggedCall) : Rest C (σ × List LoggedCall) :=
  ⟨rest.state, rest.context, rest.disposition, rest.trace, (rest.env, calls)⟩

@[simp] theorem Interpreter.state?_logged (i : Interpreter C σ) (id : String) :
    i.logged.machine.state? id = (i.machine.state? id).map (Machine.State.logged id) :=
  Table.get?_mapValues _ _ _

@[simp] theorem Machine.State.designated_logged (state : Machine.State C σ) (id : String) (trigger : Trigger) :
    (state.logged id).designated trigger = state.designated trigger := by
  cases trigger with
  | event | raise => rfl
  | done | error =>
    unfold designated logged
    cases state.call <;> rfl

end Logged

theorem Trigger.isRaise_eq (trigger : Trigger) :
    trigger.isRaise = decide (trigger ∈ [.raise .transit, .raise .back, .raise .retry]) := by
  cases trigger with
  | raise kind => cases kind <;> rfl
  | event | done | error => rfl

theorem Trigger.isOutcome_eq (trigger : Trigger) : trigger.isOutcome = decide (trigger ∈ [.done, .error]) := by
  cases trigger <;> rfl

/-- The states whose calls led to a hop. -/
def callers (hops : List Hop) : List String := (hops.filter fun hop => hop.trigger.isOutcome).map Hop.origin

/-- The states whose raises led to a hop. -/
def raisers (hops : List Hop) : List String := (hops.filter fun hop => hop.trigger.isRaise).map Hop.origin

@[simp] theorem callers_append (hops more : List Hop) : callers (hops ++ more) = callers hops ++ callers more := by
  simp [callers]

@[simp] theorem raisers_append (hops more : List Hop) : raisers (hops ++ more) = raisers hops ++ raisers more := by
  simp [raisers]

theorem length_callers (trace : Trace) : (callers trace.hops).length = trace.calls := by
  rw [callers, List.length_map, ← List.countP_eq_length_filter, Trace.calls]

theorem length_raisers (trace : Trace) : (raisers trace.hops).length = trace.raises := by
  rw [raisers, List.length_map, ← List.countP_eq_length_filter, Trace.raises]

theorem Trace.raises_eq (trace : Trace) : trace.raises =
    (trace.hops.filter fun hop => hop.trigger ∈ [.raise .transit, .raise .back, .raise .retry]).length := by
  rw [raises, List.countP_eq_length_filter, funext Trigger.isRaise_eq]

theorem Trace.calls_eq (trace : Trace) :
    trace.calls = (trace.hops.filter fun hop => hop.trigger ∈ [.done, .error]).length := by
  rw [calls, List.countP_eq_length_filter, funext Trigger.isOutcome_eq]

variable [Context C] {i : Interpreter C σ} {now : Instant} {event : Event} {start p q : Position C σ}
  {hops : List Hop} {state : Machine.State C σ} {calls : List LoggedCall} {disposition : Disposition}

/-- The call was made at this position, by the service of its state. -/
structure LoggedCall.MadeAt (logged : LoggedCall) (event : Event) (p : Position C σ) (state : Machine.State C σ) :
    Prop where
  here : p.state = logged.state
  quiet : state.raise = none
  answer : ∃ call, state.call = some call ∧ (call.service p.context event p.env).result = logged.result

/-- The call was made on the way of the turn. -/
def LoggedCall.Made (logged : LoggedCall) (i : Interpreter C σ) (now : Instant) (event : Event)
    (start : Position C σ) : Prop :=
  ∃ hops p state, Walk i now event start hops p ∧ i.machine.state? p.state = some state ∧ logged.MadeAt event p state

/-- The effect of a state is logged if it is a call. -/
theorem Effect.logged {trigger : Trigger} {context : C} {judged : Event} {env : σ}
    (effect : Effect i event p state trigger context judged env) (calls : List LoggedCall) :
    ∃ made : List LoggedCall,
      Effect i.logged event (p.withLog calls) (state.logged p.state) trigger context judged (env, calls ++ made) ∧
        made.map LoggedCall.state = (if trigger.isOutcome then [p.state] else []) ∧
        ∀ logged ∈ made, logged.MadeAt event p state := by
  cases effect with
  | raise raises =>
    have same : Effect i.logged event (p.withLog calls) (state.logged p.state) _ _ _ _ := .raise raises
    exact ⟨[], by simpa [Position.withLog] using same, rfl, by simp⟩
  | @done call value quiet calling answered =>
    have called : (state.logged p.state).call = some (call.logged p.state) := by
      rw [Machine.State.logged, calling]
      rfl
    refine ⟨[⟨p.state, .ok value⟩], ?_, rfl, List.forall_mem_singleton.2 ⟨rfl, quiet, call, calling, answered⟩⟩
    have same : Effect i.logged event (p.withLog calls) _ _ _ _ _ := .done quiet called answered
    rw [← answered]
    exact same
  | @error call err quiet calling rejected =>
    have called : (state.logged p.state).call = some (call.logged p.state) := by
      rw [Machine.State.logged, calling]
      rfl
    refine ⟨[⟨p.state, .error err⟩], ?_, rfl, List.forall_mem_singleton.2 ⟨rfl, quiet, call, calling, rejected⟩⟩
    have same : Effect i.logged event (p.withLog calls) _ _ _ _ _ := .error quiet called rejected
    rw [← rejected]
    exact same

/-- The logged interpreter makes the same walk, and logs the calls whose outcomes led on. -/
theorem Walk.logged (walk : Walk i now event start hops p) :
    ∃ calls : List LoggedCall, Walk i.logged now event (start.withLog []) hops (p.withLog calls) ∧
      calls.map LoggedCall.state = callers hops ∧ ∀ logged ∈ calls, logged.Made i now event start := by
  induction walk with
  | @event state t after found first ran =>
    have there : i.logged.machine.state? (start.withLog []).state = some (state.logged start.state) := by
      simp [Position.withLog, found]
    exact ⟨[], .event there first ran, by simp [callers, Trigger.isOutcome], by simp⟩
  | @automatic hops p state trigger context judged env t after walk found proceeds fresh effect first ran ih =>
    obtain ⟨calls, same, names, all⟩ := ih
    obtain ⟨made, effectThere, nameThere, here⟩ := effect.logged calls
    have there : i.logged.machine.state? (p.withLog calls).state = some (state.logged p.state) := by
      simp [Position.withLog, found]
    refine ⟨calls ++ made, same.automatic there proceeds fresh effectThere (by simpa using first) ran, ?_, ?_⟩
    · rw [List.map_append, names, nameThere, callers_append]
      cases outcome : trigger.isOutcome <;> simp [callers, outcome]
    · intro logged mem
      rcases List.mem_append.1 mem with earlier | last
      · exact all logged earlier
      · exact ⟨hops, p, state, walk, found, here logged last⟩

/-- The state calls a service, and was not left in this turn. -/
def MayCall (i : Interpreter C σ) (hops : List Hop) (id : String) (call : Invocation C σ) : Prop :=
  ∃ state, i.machine.state? id = some state ∧ state.kind ≠ .final ∧ state.raise = none ∧ state.call = some call ∧
    ¬ Spent hops id

omit [Context C] in
theorem MayCall.mem_calling {id : String} {call : Invocation C σ} (may : MayCall i hops id call) :
    id ∈ i.machine.calling := by
  obtain ⟨state, found, proceeds, quiet, calls, -⟩ := may
  exact Machine.mem_calling_iff.2 ⟨state, found, proceeds, quiet, calls ▸ rfl⟩

omit [Context C] in
theorem MayCall.not_mem_callers {id : String} {call : Invocation C σ} (may : MayCall i hops id call) :
    id ∉ callers hops := by
  obtain ⟨_, _, _, _, _, fresh⟩ := may
  intro mem
  obtain ⟨hop, answered, origin⟩ := List.mem_map.1 mem
  obtain ⟨inside, outcome⟩ := List.mem_filter.1 answered
  exact fresh ⟨hop, inside, origin, by simp [Hop.isAutomatic, outcome]⟩

/-- No candidate for this answer to the call is eligible. -/
def Invocation.Refuses (i : Interpreter C σ) (call : Invocation C σ) (context : C) (event : Event) :
    Except ServiceError Value → Prop
  | .ok value => Transition.NoneEligible call.onDone context (event.withOutcome (.success value))
  | .error err => Transition.NoneEligible call.onError context (event.withOutcome (.failure (i.classify err)))

/-- The turn ends unresolved because no candidate for the answer to its last call is eligible. -/
structure Rest.Unrouted (i : Interpreter C σ) (event : Event) (rest : Rest C σ) (calls : List LoggedCall) :
    Prop where
  unresolved : rest.disposition = .unresolved
  refused : ∃ call logged, MayCall i rest.trace.hops rest.state call ∧ calls.getLast? = some logged ∧
    logged.state = rest.state ∧ call.Refuses i rest.context event logged.result

/-- What the end of a walk logs: nothing, or a call whose outcome is the end. -/
inductive Ending.Logs (i : Interpreter C σ) (event : Event) (hops : List Hop) (p q : Position C σ) :
    Disposition → List LoggedCall → Prop
  | nothing {disposition : Disposition} : (∀ call, ¬ MayCall i hops p.state call) →
      Logs i event hops p q disposition []
  | call {state : Machine.State C σ} {call : Invocation C σ} {logged : LoggedCall} : MayCall i hops p.state call →
      i.machine.state? p.state = some state → logged.MadeAt event p state →
      call.Refuses i q.context event logged.result → Logs i event hops p q .unresolved [logged]

/-- The logged interpreter ends the walk in the same way. -/
theorem Ending.logged (ending : Ending i event hops p disposition q) (calls : List LoggedCall) :
    ∃ made : List LoggedCall, Ending i.logged event hops (p.withLog calls) disposition (q.withLog (calls ++ made)) ∧
      Logs i event hops p q disposition made := by
  have there {state : Machine.State C σ} (found : i.machine.state? p.state = some state) :
      i.logged.machine.state? (p.withLog calls).state = some (state.logged p.state) := by
    simp [Position.withLog, found]
  cases ending with
  | outside unknown =>
    have unknownThere : i.logged.machine.state? (p.withLog calls).state = none := by
      simp [Position.withLog, unknown]
    refine ⟨[], by simpa using .outside unknownThere, .nothing ?_⟩
    rintro call ⟨state, found, -⟩
    simp [unknown] at found
  | final found final =>
    refine ⟨[], by simpa using .final (there found) final, .nothing ?_⟩
    rintro call ⟨state, found', proceeds, -⟩
    cases Option.some.inj (found.symm.trans found')
    exact absurd final proceeds
  | @waiting state found proceeds quiet silent =>
    have silentThere : (state.logged p.state).call = none := by
      rw [Machine.State.logged, silent]
      rfl
    refine ⟨[], by simpa using .waiting (there found) proceeds quiet silentThere, .nothing ?_⟩
    rintro call ⟨state, found', -, -, calling, -⟩
    cases Option.some.inj (found.symm.trans found')
    simp [silent] at calling
  | @again state found proceeds acts spent =>
    have actsThere : (state.logged p.state).raise.isSome ∨ (state.logged p.state).call.isSome := by
      simpa [Machine.State.logged] using acts
    refine ⟨[], by simpa using .again (there found) proceeds actsThere spent, .nothing ?_⟩
    rintro call ⟨state, -, -, -, -, fresh⟩
    exact fresh spent
  | @unrouted state trigger context judged env found proceeds fresh effect refused =>
    obtain ⟨made, effectThere, names, here⟩ := effect.logged calls
    refine ⟨made, .unrouted (there found) proceeds fresh effectThere (by simpa using refused), ?_⟩
    cases effect with
    | raise raises =>
      cases List.map_eq_nil_iff.1 names
      refine .nothing ?_
      rintro call ⟨state, found', -, quiet, -⟩
      cases Option.some.inj (found.symm.trans found')
      simp [quiet] at raises
    | done quiet calling answered | error quiet calling answered =>
      obtain ⟨logged, rfl, -⟩ := List.map_eq_singleton_iff.1 names
      have madeHere := here logged (List.mem_singleton_self _)
      obtain ⟨-, -, call, calling', result⟩ := id madeHere
      cases Option.some.inj (calling.symm.trans calling')
      rw [Machine.State.designated, calling] at refused
      refine .call ⟨state, found, proceeds, quiet, calling, fresh⟩ found madeHere ?_
      rw [← result, answered]
      exact refused

/-- The logged interpreter makes the same turn along a walk. -/
theorem Ending.exists_calls {rest : Rest C σ} (walk : Walk i now event start rest.trace.hops p)
    (ending : Ending i event rest.trace.hops p rest.disposition rest.position) :
    ∃ calls made, i.logged.step now start.state start.context event (start.env, []) = rest.withLog (calls ++ made) ∧
      calls.map LoggedCall.state = callers rest.trace.hops ∧
      Logs i event rest.trace.hops p rest.position rest.disposition made ∧
      ∀ logged ∈ calls ++ made, logged.Made i now event start := by
  obtain ⟨calls, walkThere, names, all⟩ := walk.logged
  obtain ⟨made, endingThere, last⟩ := ending.logged calls
  refine ⟨calls, made, Interpreter.step_of_walk walkThere endingThere, names, last, ?_⟩
  refine List.forall_mem_append.2 ⟨all, fun logged mem => ?_⟩
  generalize rest.disposition = disposition at last
  cases last with
  | nothing => cases mem
  | call may found here refuses =>
    cases List.mem_singleton.1 mem
    exact ⟨_, p, _, walk, found, here⟩

/-- What bounds a turn that makes these calls. -/
structure Rest.Bounded (i : Interpreter C σ) (event : Event) (rest : Rest C σ) (calls : List LoggedCall) :
    Prop where
  /-- One hop for the event, and one at most for each state that raises or calls. -/
  length_le : rest.trace.hops.length ≤ 1 + i.machine.raising.length + i.machine.calling.length
  /-- No state raises twice. -/
  nodup_raisers : (raisers rest.trace.hops).Nodup
  mem_raising : ∀ id ∈ raisers rest.trace.hops, id ∈ i.machine.raising
  /-- No state calls twice. -/
  nodup_calls : (calls.map LoggedCall.state).Nodup
  mem_calling : ∀ logged ∈ calls, logged.state ∈ i.machine.calling
  raises_eq : rest.trace.raises = (rest.trace.hops.filter fun hop =>
    hop.trigger ∈ [.raise .transit, .raise .back, .raise .retry]).length
  calls_eq : rest.trace.calls = (rest.trace.hops.filter fun hop => hop.trigger ∈ [.done, .error]).length
  /-- Only the first hop is neither. -/
  length_eq : rest.trace.hops ≠ [] → rest.trace.hops.length = 1 + rest.trace.raises + rest.trace.calls
  routed : ¬ rest.Unrouted i event calls → calls.length = rest.trace.calls
  unrouted : rest.Unrouted i event calls → calls.length = rest.trace.calls + 1

theorem Walk.length_eq (walk : Walk i now event start hops p) :
    hops.length = 1 + (raisers hops).length + (callers hops).length := by
  induction walk with
  | event => rfl
  | @automatic hops p state trigger context judged env t after walk found proceeds fresh effect first ran ih =>
    rw [List.length_append, ih, callers_append, raisers_append]
    cases effect <;> simp [callers, raisers, Trigger.isRaise, Trigger.isOutcome] <;> omega

/-- The hops that a walk makes by itself leave states that raise or call. -/
theorem Walk.mem_raising (walk : Walk i now event start hops p) :
    (∀ id ∈ raisers hops, id ∈ i.machine.raising) ∧ ∀ id ∈ callers hops, id ∈ i.machine.calling := by
  induction walk with
  | event => simp [callers, raisers, Trigger.isRaise, Trigger.isOutcome]
  | @automatic hops p state trigger context judged env t after walk found proceeds fresh effect first ran ih =>
    rw [raisers_append, callers_append, List.forall_mem_append, List.forall_mem_append]
    refine ⟨⟨ih.1, ?_⟩, ih.2, ?_⟩
    · cases effect with
      | raise raises =>
        have raising := Machine.mem_raising_iff.2 ⟨state, found, proceeds, raises ▸ rfl⟩
        simpa [raisers, Trigger.isRaise] using raising
      | done | error => simp [raisers, Trigger.isRaise]
    · cases effect with
      | raise => simp [callers, Trigger.isOutcome]
      | done quiet calls | error quiet calls =>
        have calling := Machine.mem_calling_iff.2 ⟨state, found, proceeds, quiet, calls ▸ rfl⟩
        simpa [callers, Trigger.isOutcome] using calling

/-- No state of a walk raises or calls twice. -/
theorem Walk.nodup_raisers (walk : Walk i now event start hops p) : (raisers hops).Nodup ∧ (callers hops).Nodup := by
  have raise (hop : Hop) (raised : hop.trigger.isRaise = true) : hop.isAutomatic = true := by
    simp [Hop.isAutomatic, raised]
  have outcome (hop : Hop) (answered : hop.trigger.isOutcome = true) : hop.isAutomatic = true := by
    simp [Hop.isAutomatic, answered]
  exact ⟨walk.nodup_origins.sublist ((List.monotone_filter_right hops raise).map Hop.origin),
    walk.nodup_origins.sublist ((List.monotone_filter_right hops outcome).map Hop.origin)⟩

omit [Context C] in
theorem Rest.Unrouted.absurd {rest : Rest C σ} (unrouted : rest.Unrouted i event calls)
    (idle : ∀ call, ¬ MayCall i rest.trace.hops rest.state call) {P : Prop} : P := by
  obtain ⟨-, call, -, may, -⟩ := unrouted
  exact (idle call may).elim

omit [Context C] in
/-- A turn without a hop calls nothing. -/
theorem Rest.Bounded.of_still {rest : Rest C σ} (still : rest.trace.hops = []) : rest.Bounded i event [] := by
  constructor <;> simp [still, raisers, Trace.raises, Trace.calls]
  rintro ⟨-, _, _, -, last, -⟩
  cases last

/-- A turn that is a walk is bounded by its machine. -/
theorem Ending.bounded {rest : Rest C σ} (walk : Walk i now event start rest.trace.hops p)
    (ending : Ending i event rest.trace.hops p rest.disposition rest.position) :
    ∃ calls, i.logged.step now start.state start.context event (start.env, []) = rest.withLog calls ∧
      rest.Bounded i event calls := by
  obtain ⟨calls, made, same, names, logs, -⟩ := ending.exists_calls walk
  have arrived : rest.state = p.state := ending.state_eq
  obtain ⟨raising, calling⟩ := walk.mem_raising
  obtain ⟨nodupRaisers, nodupCallers⟩ := walk.nodup_raisers
  have counted : calls.length = rest.trace.calls := by rw [← length_callers, ← names, List.length_map]
  have shared : rest.trace.hops.length ≤ 1 + i.machine.raising.length + i.machine.calling.length := by
    have raised := (List.subperm_of_subset nodupRaisers raising).length_le
    have called := (List.subperm_of_subset nodupCallers calling).length_le
    have length := walk.length_eq
    omega
  have length : rest.trace.hops.length = 1 + rest.trace.raises + rest.trace.calls := by
    rw [walk.length_eq, length_raisers, length_callers]
  have within : ∀ logged ∈ calls, logged.state ∈ i.machine.calling := fun logged mem =>
    calling _ (names ▸ List.mem_map_of_mem mem)
  refine ⟨calls ++ made, same, ?_⟩
  generalize ended : rest.disposition = disposition at logs
  cases logs with
  | nothing idle =>
    rw [List.append_nil]
    exact ⟨shared, nodupRaisers, raising, names ▸ nodupCallers, within, rest.trace.raises_eq, rest.trace.calls_eq,
      fun _ => length, fun _ => counted, fun unrouted => unrouted.absurd (arrived ▸ idle)⟩
  | @call state call logged may found here refuses =>
    have apart : ((calls ++ [logged]).map LoggedCall.state).Nodup := by
      rw [List.map_append, names, List.map_singleton, ← here.here]
      refine List.nodup_append.2 ⟨nodupCallers, by simp, ?_⟩
      rintro id mem last single rfl
      exact may.not_mem_callers (List.mem_singleton.1 single ▸ mem)
    have within : ∀ logged' ∈ calls ++ [logged], logged'.state ∈ i.machine.calling :=
      List.forall_mem_append.2 ⟨within, List.forall_mem_singleton.2 (here.here ▸ may.mem_calling)⟩
    have stuck : rest.Unrouted i event (calls ++ [logged]) :=
      ⟨ended, call, logged, arrived ▸ may, by simp, by rw [arrived, here.here], refuses⟩
    exact ⟨shared, nodupRaisers, raising, apart, within, rest.trace.raises_eq, rest.trace.calls_eq, fun _ => length,
      fun routed => absurd stuck routed, fun _ => by simp [counted]⟩

namespace Interpreter

theorem logged_step_of_unknown (now : Instant) {state : String} (unknown : i.machine.state? state = none)
    (context : C) (event : Event) (env : σ) (calls : List LoggedCall) :
    i.logged.step now state context event (env, calls) = ⟨state, context, .unresolved, {}, (env, calls)⟩ := by
  have there : i.logged.machine.state? state = none := by simp [unknown]
  simp only [step, there]

theorem logged_step_of_ignored (now : Instant) {id : String} (found : i.machine.state? id = some state) {context : C}
    {event : Event} (refused : Transition.NoneEligible (state.on event.kind) context event) (env : σ)
    (calls : List LoggedCall) :
    i.logged.step now id context event (env, calls) =
      ⟨id, context, if state.isFinal then .finished else .waiting, {}, (env, calls)⟩ := by
  have there : i.logged.machine.state? id = some (state.logged id) := by simp [found]
  have ignored : Transition.select ((state.logged id).on event.kind) context event = none :=
    Transition.select_eq_none_iff.2 refused
  simp only [step, there, ignored]
  rfl

/-- Every logged call was made on the way of the turn. -/
theorem made_of_logged {i : Interpreter C σ} {now : Instant} {state : String} {context : C} {event : Event} {env : σ}
    {logged : LoggedCall} (mem : logged ∈ (i.logged.step now state context event (env, [])).env.2) :
    logged.Made i now event ⟨state, context, env⟩ := by
  rcases i.step_cases now state context event env with
    ⟨unknown, -⟩ | ⟨current, found, refused, -⟩ | ⟨current, last, -, -, walk, ending⟩
  · simp [logged_step_of_unknown now unknown] at mem
  · simp [logged_step_of_ignored now found refused] at mem
  · obtain ⟨calls, made, same, -, -, all⟩ := ending.exists_calls walk
    rw [same] at mem
    exact all logged mem

/-- Every turn is bounded by its machine, whatever its guards, actions and services do. -/
theorem step_bounded (i : Interpreter C σ) (now : Instant) (state : String) (context : C) (event : Event) (env : σ) :
    let rest := i.step now state context event env
    ∃ calls, i.logged.step now state context event (env, []) = rest.withLog calls ∧ rest.Bounded i event calls := by
  intro rest
  rcases i.step_cases now state context event env with
    ⟨unknown, same⟩ | ⟨current, found, refused, same⟩ | ⟨current, last, -, -, walk, ending⟩
  · refine ⟨[], ?_, .of_still (by simp [rest, same])⟩
    rw [logged_step_of_unknown now unknown, show rest = _ from same]
    rfl
  · refine ⟨[], ?_, .of_still (by simp [rest, same])⟩
    rw [logged_step_of_ignored now found refused, show rest = _ from same]
    rfl
  · exact ending.bounded walk

end Interpreter

end DialMenu
