import DialMenu.Proofs.Interpreter.Walk
import DialMenu.Rehearsal.Rules

/-!
The interpreter makes the hops that the relation allows. `Run.Tracks` ties a run under way to a walk: what the
run may still raise or call is what the walk has not spent. Every turn that takes a candidate is a walk up to its
end; any other turn changes nothing.
-/

namespace DialMenu

variable {C σ : Type}

namespace Machine

theorem nodup_keys_filter (machine : Machine C σ) (keep : String × State C σ → Bool) :
    ((machine.states.entries.filter keep).map (·.1)).Nodup := by
  have sorted := (Entries.sorted_iff_keys.1 (machine.states.sorted.filter keep))
  refine sorted.imp ?_
  rintro a b less rfl
  simp at less

theorem mem_keys_filter_iff {machine : Machine C σ} {keep : String × State C σ → Bool} {id : String} :
    id ∈ (machine.states.entries.filter keep).map (·.1) ↔
      ∃ state, machine.state? id = some state ∧ keep (id, state) = true := by
  constructor
  · intro mem
    obtain ⟨⟨key, state⟩, kept, rfl⟩ := List.mem_map.1 mem
    obtain ⟨inside, holds⟩ := List.mem_filter.1 kept
    exact ⟨state, (Table.mem_entries_iff _ _ _).1 inside, holds⟩
  · rintro ⟨state, found, holds⟩
    have inside := (Table.mem_entries_iff _ _ _).2 found
    exact List.mem_map.2 ⟨(id, state), List.mem_filter.2 ⟨inside, holds⟩, rfl⟩

theorem mem_raising_iff {machine : Machine C σ} {id : String} :
    id ∈ machine.raising ↔
      ∃ state, machine.state? id = some state ∧ state.kind ≠ .final ∧ state.raise.isSome = true := by
  unfold raising
  rw [mem_keys_filter_iff]
  simp [State.isFinal]

theorem mem_calling_iff {machine : Machine C σ} {id : String} :
    id ∈ machine.calling ↔ ∃ state, machine.state? id = some state ∧ state.kind ≠ .final ∧
      state.raise = none ∧ state.call.isSome = true := by
  unfold calling
  rw [mem_keys_filter_iff]
  simp [State.isFinal, and_assoc]

end Machine

section Simulation

variable [Context C]

/-- Where the run stands. -/
def Run.position (run : Run C σ) : Position C σ := ⟨run.state, run.context, run.env⟩

/-- Where the turn leaves the conversation. -/
def Rest.position (rest : Rest C σ) : Position C σ := ⟨rest.state, rest.context, rest.env⟩

/-- The run has made the hops of a walk, and may still do what the walk has not spent. -/
structure Run.Tracks (i : Interpreter C σ) (now : Instant) (event : Event) (start : Position C σ) (run : Run C σ) :
    Prop where
  walk : Walk i now event start run.trace.hops run.position
  nodup_mayRaise : run.mayRaise.Nodup
  nodup_mayCall : run.mayCall.Nodup
  mem_mayRaise : ∀ id, id ∈ run.mayRaise ↔ id ∈ i.machine.raising ∧ ¬ Spent run.trace.hops id
  mem_mayCall : ∀ id, id ∈ run.mayCall ↔ id ∈ i.machine.calling ∧ ¬ Spent run.trace.hops id

/-- An automatic hop keeps a run on its walk if it uses up what the state could do by itself. -/
theorem Run.Tracks.extend {i : Interpreter C σ} {now : Instant} {event : Event} {start : Position C σ}
    {run run' : Run C σ} {hop : Hop} (tracked : run.Tracks i now event start)
    (walk : Walk i now event start (run.trace.hops ++ [hop]) run'.position)
    (origin : hop.origin = run.state) (automatic : hop.isAutomatic = true)
    (hops : run'.trace.hops = run.trace.hops ++ [hop])
    (mayRaise : run'.mayRaise = run.mayRaise.erase run.state)
    (mayCall : run'.mayCall = run.mayCall.erase run.state) : run'.Tracks i now event start where
  walk := hops ▸ walk
  nodup_mayRaise := mayRaise ▸ tracked.nodup_mayRaise.erase _
  nodup_mayCall := mayCall ▸ tracked.nodup_mayCall.erase _
  mem_mayRaise id := by
    rw [mayRaise, hops, tracked.nodup_mayRaise.mem_erase_iff, tracked.mem_mayRaise, spent_append_singleton, origin]
    grind
  mem_mayCall id := by
    rw [mayCall, hops, tracked.nodup_mayCall.mem_erase_iff, tracked.mem_mayCall, spent_append_singleton, origin]
    grind

/-- What becomes of a run that tracks a walk: it goes on along the walk, or the turn ends there. -/
def Progress.Follows (i : Interpreter C σ) (now : Instant) (event : Event) (start : Position C σ) (run : Run C σ) :
    Progress C σ → Prop
  | .hop run' => run'.Tracks i now event start
  | .rest disposition run' =>
    run'.trace = run.trace ∧ Ending i event run.trace.hops run.position disposition run'.position

/-- The run after the effect of its state, with nothing left to do there. -/
def Run.affected (run : Run C σ) (context : C) (env : σ) : Run C σ :=
  { run with
    context, env
    mayRaise := run.mayRaise.erase run.state
    mayCall := run.mayCall.erase run.state }

theorem Run.Tracks.follows_effect {i : Interpreter C σ} {now : Instant} {event : Event} {start : Position C σ}
    {run : Run C σ} {state : Machine.State C σ} {trigger : Trigger} {context : C} {judged : Event} {env : σ}
    (tracked : run.Tracks i now event start) (found : i.machine.state? run.state = some state)
    (proceeds : state.kind ≠ .final) (fresh : ¬ Spent run.trace.hops run.state)
    (effect : Effect i event run.position state trigger context judged env) :
    Progress.Follows i now event start run
      (match Transition.select (state.designated trigger) context judged with
      | some t => .hop ((run.affected context env).take now t judged trigger)
      | none => .rest .unresolved (run.affected context env)) := by
  split
  · rename_i t selected
    have first := Transition.select_eq_some_iff.1 selected
    have longer := tracked.walk.automatic found proceeds fresh effect first (t.sequence_apply context judged)
    exact tracked.extend longer rfl effect.isAutomatic rfl rfl rfl
  · rename_i refused
    exact ⟨rfl, .unrouted found proceeds fresh effect (Transition.select_eq_none_iff.1 refused)⟩

section Left

variable {i : Interpreter C σ} {now : Instant} {event : Event} {start : Position C σ} {run : Run C σ}
  {state : Machine.State C σ}

/-- A state may raise until the walk has left it. -/
theorem Run.Tracks.mem_mayRaise_iff (tracked : run.Tracks i now event start)
    (found : i.machine.state? run.state = some state) (proceeds : state.kind ≠ .final) {r : EntryRaise}
    (raises : state.raise = some r) : run.state ∈ run.mayRaise ↔ ¬ Spent run.trace.hops run.state := by
  rw [tracked.mem_mayRaise, Machine.mem_raising_iff]
  simp [found, proceeds, raises]

theorem Run.Tracks.not_mem_mayRaise (tracked : run.Tracks i now event start)
    (found : i.machine.state? run.state = some state) (quiet : state.raise = none) : run.state ∉ run.mayRaise := by
  rw [tracked.mem_mayRaise, Machine.mem_raising_iff]
  simp [found, quiet]

/-- A state may call until the walk has left it. -/
theorem Run.Tracks.mem_mayCall_iff (tracked : run.Tracks i now event start)
    (found : i.machine.state? run.state = some state) (proceeds : state.kind ≠ .final) (quiet : state.raise = none)
    {c : Invocation C σ} (calls : state.call = some c) :
    run.state ∈ run.mayCall ↔ ¬ Spent run.trace.hops run.state := by
  rw [tracked.mem_mayCall, Machine.mem_calling_iff]
  simp [found, proceeds, quiet, calls]

theorem Run.Tracks.not_mem_mayCall (tracked : run.Tracks i now event start)
    (found : i.machine.state? run.state = some state) {r : EntryRaise} (raises : state.raise = some r) :
    run.state ∉ run.mayCall := by
  rw [tracked.mem_mayCall, Machine.mem_calling_iff]
  simp [found, raises]

/-- What raises or calls has an effect. -/
theorem Effect.exists_of_acts {p : Position C σ} (acts : state.raise.isSome ∨ state.call.isSome) :
    ∃ trigger context judged env, Effect i event p state trigger context judged env := by
  cases raises : state.raise with
  | some r => exact ⟨_, _, _, _, .raise raises⟩
  | none =>
    obtain ⟨call, calls⟩ := Option.isSome_iff_exists.1 (acts.resolve_left (by simp [raises]))
    cases answered : (call.service p.context event p.env).result with
    | ok value => exact ⟨_, _, _, _, .done raises calls answered⟩
    | error err => exact ⟨_, _, _, _, .error raises calls answered⟩

namespace Interpreter

/-- A state that the walk has not left goes on with the first eligible candidate for its effect. -/
theorem next_of_effect {trigger : Trigger} {context : C} {judged : Event} {env : σ}
    (tracked : run.Tracks i now event start) (found : i.machine.state? run.state = some state)
    (proceeds : state.kind ≠ .final) (fresh : ¬ Spent run.trace.hops run.state)
    (effect : Effect i event run.position state trigger context judged env) :
    i.next now event run =
      match Transition.select (state.designated trigger) context judged with
      | some t => .hop ((run.affected context env).take now t judged trigger)
      | none => .rest .unresolved (run.affected context env) := by
  unfold next
  simp only [found, Machine.State.isFinal_eq_false_iff.2 proceeds, Bool.false_eq_true, if_false]
  cases effect with
  | raise raises =>
    have may := (tracked.mem_mayRaise_iff found proceeds raises).2 fresh
    rw [Run.affected, List.erase_of_not_mem (tracked.not_mem_mayCall found raises)]
    simp only [raises, Interpreter.raise, if_pos may]
    rfl
  | done quiet calls answered =>
    have may := (tracked.mem_mayCall_iff found proceeds quiet calls).2 fresh
    rw [Run.affected, List.erase_of_not_mem (tracked.not_mem_mayRaise found quiet)]
    simp only [Run.position] at answered ⊢
    simp only [quiet, calls, Interpreter.call, if_pos may, answered, Machine.State.designated]
    rfl
  | error quiet calls rejected =>
    have may := (tracked.mem_mayCall_iff found proceeds quiet calls).2 fresh
    rw [Run.affected, List.erase_of_not_mem (tracked.not_mem_mayRaise found quiet)]
    simp only [Run.position] at rejected ⊢
    simp only [quiet, calls, Interpreter.call, if_pos may, rejected, Machine.State.designated]
    rfl

/-- Where the walk went on by itself already, it ends. -/
theorem next_of_spent (tracked : run.Tracks i now event start) (found : i.machine.state? run.state = some state)
    (proceeds : state.kind ≠ .final) (acts : state.raise.isSome ∨ state.call.isSome)
    (spent : Spent run.trace.hops run.state) : i.next now event run = .rest .unresolved run := by
  unfold next
  simp only [found, Machine.State.isFinal_eq_false_iff.2 proceeds, Bool.false_eq_true, if_false]
  cases raises : state.raise with
  | some r => exact if_neg fun may => (tracked.mem_mayRaise_iff found proceeds raises).1 may spent
  | none =>
    obtain ⟨c, calls⟩ := Option.isSome_iff_exists.1 (acts.resolve_left (by simp [raises]))
    simp only [calls]
    exact if_neg fun may => (tracked.mem_mayCall_iff found proceeds raises calls).1 may spent

end Interpreter

end Left

namespace Interpreter

/-- What the machine does by itself is a step of the walk, or the end of it. -/
theorem follows_next {i : Interpreter C σ} {now : Instant} {event : Event} {start : Position C σ} {run : Run C σ}
    (tracked : run.Tracks i now event start) :
    Progress.Follows i now event start run (i.next now event run) := by
  cases found : i.machine.state? run.state with
  | none =>
    simp only [next, found]
    exact ⟨rfl, .outside found⟩
  | some state =>
    rcases eq_or_ne state.kind .final with final | proceeds
    · simp only [next, found, Machine.State.isFinal_iff.2 final, if_true]
      exact ⟨rfl, .final found final⟩
    · by_cases acts : state.raise.isSome ∨ state.call.isSome
      · by_cases spent : Spent run.trace.hops run.state
        · rw [next_of_spent tracked found proceeds acts spent]
          exact ⟨rfl, .again found proceeds acts spent⟩
        · obtain ⟨trigger, context, judged, env, effect⟩ := Effect.exists_of_acts acts
          rw [next_of_effect tracked found proceeds spent effect]
          exact tracked.follows_effect found proceeds spent effect
      · obtain ⟨quiet, silent⟩ : state.raise = none ∧ state.call = none := by simpa using acts
        simp only [next, found, Machine.State.isFinal_eq_false_iff.2 proceeds, quiet, silent, Bool.false_eq_true,
          if_false]
        exact ⟨rfl, .waiting found proceeds quiet silent⟩

theorem settle_of_rest {i : Interpreter C σ} {now : Instant} {event : Event} {run run' : Run C σ}
    {disposition : Disposition} (progress : i.next now event run = .rest disposition run') :
    i.settle now event run = run'.toRest disposition := by
  rw [settle, progress]

theorem settle_of_hop {i : Interpreter C σ} {now : Instant} {event : Event} {run run' : Run C σ}
    (progress : i.next now event run = .hop run') : i.settle now event run = i.settle now event run' := by
  rw [settle, progress]

/-- A run that tracks a walk comes to rest at the end of a longer one. -/
theorem walk_settle {i : Interpreter C σ} {now : Instant} {event : Event} {start : Position C σ} {run : Run C σ}
    (tracked : run.Tracks i now event start) :
    ∃ last, Walk i now event start (i.settle now event run).trace.hops last ∧
      Ending i event (i.settle now event run).trace.hops last (i.settle now event run).disposition
        (i.settle now event run).position := by
  induction run using settle.induct i now event with
  | case1 run disposition run' progress =>
    have follows := follows_next tracked
    rw [progress] at follows
    obtain ⟨same, ending⟩ := follows
    rw [settle_of_rest progress]
    refine ⟨run.position, ?_, ?_⟩
    · rw [Run.toRest, same]
      exact tracked.walk
    · rw [Run.toRest, same]
      exact ending
  | case2 run run' progress ih =>
    have follows := follows_next tracked
    rw [progress] at follows
    rw [settle_of_hop progress]
    exact ih follows

/-- The event starts a walk, if it selects a candidate. -/
theorem tracks_take {i : Interpreter C σ} {now : Instant} {event : Event} {start : Position C σ}
    {state : Machine.State C σ} {t : Transition C} (found : i.machine.state? start.state = some state)
    (first : t.FirstEligible (state.on event.kind) start.context event) :
    Run.Tracks i now event start
      (Run.take ⟨start.state, Context.setFeedback none start.context, start.env, {}, i.machine.raising,
        i.machine.calling⟩ now t event (.event event.kind)) where
  walk := .event found first (t.sequence_apply _ event)
  nodup_mayRaise := i.machine.nodup_keys_filter _
  nodup_mayCall := i.machine.nodup_keys_filter _
  mem_mayRaise id := by
    simp [Run.take, Trace.record, Spent, Hop.isAutomatic, Trigger.isRaise, Trigger.isOutcome]
  mem_mayCall id := by
    simp [Run.take, Trace.record, Spent, Hop.isAutomatic, Trigger.isRaise, Trigger.isOutcome]

/-- The three ways of a turn: the state is unknown, the event is ignored, or there is a walk to its end. -/
theorem step_cases (i : Interpreter C σ) (now : Instant) (state : String) (context : C) (event : Event) (env : σ) :
    (i.machine.state? state = none ∧
      i.step now state context event env = ⟨state, context, .unresolved, {}, env⟩) ∨
    (∃ current, i.machine.state? state = some current ∧
      Transition.NoneEligible (current.on event.kind) context event ∧
      i.step now state context event env =
        ⟨state, context, if current.isFinal then .finished else .waiting, {}, env⟩) ∨
    (∃ current last, i.machine.state? state = some current ∧
      ¬ Transition.NoneEligible (current.on event.kind) context event ∧
      Walk i now event ⟨state, context, env⟩ (i.step now state context event env).trace.hops last ∧
      Ending i event (i.step now state context event env).trace.hops last
        (i.step now state context event env).disposition (i.step now state context event env).position) := by
  unfold step
  cases found : i.machine.state? state with
  | none => exact .inl ⟨rfl, rfl⟩
  | some current =>
    dsimp only
    cases selected : Transition.select (current.on event.kind) context event with
    | none => exact .inr (.inl ⟨current, rfl, Transition.select_eq_none_iff.1 selected, rfl⟩)
    | some t =>
      have first := Transition.select_eq_some_iff.1 selected
      have tracked : Run.Tracks i now event ⟨state, context, env⟩ _ := tracks_take found first
      obtain ⟨last, walk, ending⟩ := walk_settle tracked
      exact .inr (.inr ⟨current, last, rfl, first.not_noneEligible, walk, ending⟩)

/-- A turn is finished only in a final state, and waits only in a state that is not final. -/
theorem state_of_disposition (i : Interpreter C σ) (now : Instant) (state : String) (context : C) (event : Event)
    (env : σ) :
    let rest := i.step now state context event env
    (rest.disposition = .finished → i.machine.isTerminal rest.state = true) ∧
      (rest.disposition = .waiting →
        i.machine.contains rest.state = true ∧ i.machine.isTerminal rest.state = false) := by
  intro rest
  have isTerminal {id : String} {stopped : Machine.State C σ} (found : i.machine.state? id = some stopped) :
      i.machine.isTerminal id = stopped.isFinal := congrArg (Option.any Machine.State.isFinal) found
  have contains {id : String} {stopped : Machine.State C σ} (found : i.machine.state? id = some stopped) :
      i.machine.contains id = true := congrArg Option.isSome found
  rcases i.step_cases now state context event env with
    ⟨-, same⟩ | ⟨current, found, -, same⟩ | ⟨current, last, -, -, -, ending⟩
  · simp [rest, same]
  · cases final : current.isFinal <;> simp [rest, same, isTerminal found, contains found, final]
  · have arrived : rest.state = last.state := ending.state_eq
    rw [arrived]
    change Ending i event rest.trace.hops last rest.disposition rest.position at ending
    generalize rest.disposition = disposition at ending ⊢
    generalize rest.position = resting at ending
    cases ending with
    | final found final => simp [isTerminal found, Machine.State.isFinal_iff.2 final]
    | waiting found proceeds _ _ =>
      simp [contains found, isTerminal found, Machine.State.isFinal_eq_false_iff.2 proceeds]
    | outside _ | again _ _ _ _ | unrouted _ _ _ _ _ => simp

/-- A turn without an eligible candidate leaves everything as it is. Any other turn is a walk that begins where
the conversation stands: its hops are linked and lead to the state in which the turn comes to rest, each takes the
first eligible candidate that its trigger designates, and the walk stops only where a turn ends. -/
theorem step_refines_walk (i : Interpreter C σ) (now : Instant) (state : String) (context : C) (event : Event)
    (env : σ) :
    let rest := i.step now state context event env
    ((i.machine.state? state = none ∨ ∃ current, i.machine.state? state = some current ∧
        Transition.NoneEligible (current.on event.kind) context event) →
      rest.state = state ∧ rest.context = context ∧ rest.trace.hops = [] ∧ rest.env = env) ∧
    (∀ current, i.machine.state? state = some current →
      ¬ Transition.NoneEligible (current.on event.kind) context event →
      (∃ first later, rest.trace.hops = first :: later ∧ first.origin = state ∧
        first.trigger = .event event.kind) ∧
      rest.trace.hops.IsChain (fun hop next => next.origin = hop.target) ∧
      rest.trace.hops.getLast?.map Hop.target = some rest.state ∧
      ∃ last, Walk i now event ⟨state, context, env⟩ rest.trace.hops last ∧
        Ending i event rest.trace.hops last rest.disposition ⟨rest.state, rest.context, rest.env⟩) := by
  intro rest
  rcases i.step_cases now state context event env with
    ⟨unknown, same⟩ | ⟨current, found, refused, same⟩ | ⟨current, last, found, selects, walk, ending⟩
  · refine ⟨fun _ => by simp [rest, same], ?_⟩
    intro current found
    simp [unknown] at found
  · refine ⟨fun _ => by simp [rest, same], ?_⟩
    intro current' found' selects
    cases Option.some.inj (found.symm.trans found')
    exact absurd refused selects
  · refine ⟨?_, fun _ _ _ => ?_⟩
    · rintro (unknown | ⟨current', found', refused⟩)
      · simp [unknown] at found
      · cases Option.some.inj (found.symm.trans found')
        exact absurd refused selects
    · have entered := walk.last
      rw [← ending.state_eq] at entered
      exact ⟨walk.head, walk.linked, entered, last, walk, ending⟩

end Interpreter

end Simulation

/-- Notes a word and the event that comes with it. -/
def noteWith (word : String) : Action Rehearsal.Notebook where
  name := word
  run notebook event := { notebook with notes := notebook.notes ++ [word, Rehearsal.eventNote event] }

/-- A desk that raises an event, finds a booking and cannot confirm it. Every hop takes the second candidate. -/
def deskMachine : Machine Rehearsal.Notebook Nat where
  id := "desk"
  initial := "menu"
  states := ⟨[
    ("closed", ⟨"closed", .final, [], none, none, fun _ => []⟩),
    ("confirming", ⟨"confirming", .normal, [], none, some {
      name := "confirm"
      service := fun _ _ calls => { result := .error (.machine "TAKEN" "no place"), env := calls + 1 }
      onDone := [{ target := "menu" }]
      onError := [
        { target := "menu", guard := some ⟨"isBlocked", fun _ event => event.failure.any Failure.blocked⟩ },
        { target := "closed", guard := some ⟨"isTaken", fun _ event => event.failure.any (·.code = "TAKEN")⟩
          actions := [noteWith "taken", noteWith "bye"] }] }, fun _ => []⟩),
    ("finding", ⟨"finding", .normal, [], none, some {
      name := "find"
      service := fun _ _ calls => { result := .ok .success, env := calls + 1 }
      onDone := [
        { target := "menu", guard := some ⟨"isEmpty", fun _ event => event.output.isNone⟩ },
        { target := "confirming", guard := some ⟨"isSuccess", fun _ event => event.succeeded⟩
          actions := [noteWith "found", noteWith "confirm"] }]
      onError := [{ target := "menu" }] }, fun _ => []⟩),
    ("menu", ⟨"menu", .normal, [], none, none, fun _ => [
      { target := "closed", guard := some ⟨"isZero", fun _ event => event.input = "0"⟩ },
      { target := "repeating", actions := [noteWith "first", noteWith "second"] }]⟩),
    ("repeating", ⟨"repeating", .normal, [], some { kind := .retry, feedback := some "again" }, none, fun _ => [
      { target := "menu", guard := some ⟨"isForward", fun _ event => event.kind = .transit⟩ },
      { target := "finding", actions := [noteWith "third"] }]⟩)], by decide⟩

/-- The guards and the actions of each hop are given the event, the raised event or the outcome of the call. -/
theorem step_refines_walk_desk :
    let i : Interpreter Rehearsal.Notebook Nat := ⟨deskMachine, ServiceError.classify⟩
    let event : Event := { kind := .transit, input := "7" }
    let rest := i.step .epoch "menu" { feedback := some "old" } event 0
    rest.trace.hops.map Hop.target = ["repeating", "finding", "confirming", "closed"] ∧
      rest.context.notes = [
        "first", "TRANSIT|7|-|-", "second", "TRANSIT|7|-|-", "third", "RETRY|7|again|-",
        "found", "TRANSIT|7|-|success", "confirm", "TRANSIT|7|-|success",
        "taken", "TRANSIT|7|-|TAKEN:false:TAKEN: no place", "bye", "TRANSIT|7|-|TAKEN:false:TAKEN: no place"] ∧
      ∃ last, Walk i .epoch event ⟨"menu", { feedback := some "old" }, 0⟩ rest.trace.hops last ∧
        Ending i event rest.trace.hops last .finished ⟨"closed", rest.context, 2⟩ := by
  intro i event rest
  have turn := i.step_refines_walk .epoch "menu" { feedback := some "old" } event 0
  obtain ⟨-, -, -, last, walk, ending⟩ := turn.2 _ rfl fun refused =>
    refused _ (.tail _ (.head _)) (Transition.admits_of_free rfl _ _)
  refine ⟨by decide +kernel, by decide +kernel, last, walk, ?_⟩
  have rested : rest.state = "closed" ∧ rest.disposition = .finished ∧ rest.env = 2 := by decide +kernel
  rw [← rested.1, ← rested.2.1, ← rested.2.2]
  exact ending

end DialMenu
