import DialMenu.Proofs.Interpreter.Refinement

/-!
Every walk with an ending is a turn. The interpreter follows a walk hop by hop and stops where it ends, so the
relation and the interpreter say the same: to know a turn it is enough to lay out its hops.
-/

namespace DialMenu

variable {C σ : Type} [Context C] {i : Interpreter C σ} {now : Instant} {event : Event} {start p q : Position C σ}
  {hops : List Hop} {run : Run C σ} {state : Machine.State C σ} {disposition : Disposition}

/-- A walk is made by a run of the turn. -/
theorem Walk.exists_run (walk : Walk i now event start hops p) :
    ∃ run : Run C σ, run.Tracks i now event start ∧ run.trace.hops = hops ∧ run.position = p ∧
      i.step now start.state start.context event start.env = i.settle now event run := by
  induction walk with
  | @event state t after found first ran =>
    obtain rfl := Transition.sequence_iff.1 ran
    have selected : Transition.select (state.on event.kind) start.context event = some t :=
      Transition.select_eq_some_iff.2 first
    exact ⟨_, Interpreter.tracks_take found first, rfl, rfl, by simp only [Interpreter.step, found, selected]⟩
  | @automatic hops p state trigger context judged env t after walk found proceeds fresh effect first ran ih =>
    obtain rfl := Transition.sequence_iff.1 ran
    obtain ⟨run, tracked, rfl, rfl, same⟩ := ih
    have goes := Interpreter.next_of_effect tracked found proceeds fresh effect
    have follows := tracked.follows_effect found proceeds fresh effect
    rw [Transition.select_eq_some_iff.2 first] at goes follows
    exact ⟨_, follows, rfl, rfl, same.trans (Interpreter.settle_of_hop goes)⟩

/-- Where a walk ends the run comes to rest. -/
theorem Ending.exists_rest (tracked : run.Tracks i now event start)
    (ending : Ending i event run.trace.hops run.position disposition q) :
    ∃ run', i.next now event run = .rest disposition run' ∧ run'.trace = run.trace ∧ run'.position = q := by
  cases ending with
  | unrouted found proceeds fresh effect refused =>
    have stops := Interpreter.next_of_effect tracked found proceeds fresh effect
    rw [Transition.select_eq_none_iff.2 refused] at stops
    exact ⟨_, stops, rfl, rfl⟩
  | outside unknown =>
    have unknown : i.machine.state? run.state = none := unknown
    exact ⟨run, by simp only [Interpreter.next, unknown], rfl, rfl⟩
  | @final state found final =>
    have found : i.machine.state? run.state = some state := found
    exact ⟨run, by simp only [Interpreter.next, found, Machine.State.isFinal_iff.2 final, if_true], rfl, rfl⟩
  | @waiting state found proceeds quiet silent =>
    have found : i.machine.state? run.state = some state := found
    have proceeds := Machine.State.isFinal_eq_false_iff.2 proceeds
    exact ⟨run, by simp [Interpreter.next, found, proceeds, quiet, silent], rfl, rfl⟩
  | again found proceeds acts spent =>
    exact ⟨run, Interpreter.next_of_spent tracked found proceeds acts spent, rfl, rfl⟩

/-- The turn from the beginning of a walk comes to rest as the walk ends. -/
theorem Interpreter.step_of_walk (walk : Walk i now event start hops p)
    (ending : Ending i event hops p disposition q) :
    i.step now start.state start.context event start.env =
      { state := q.state, context := q.context, disposition, trace := { hops }, env := q.env } := by
  obtain ⟨run, tracked, rfl, rfl, same⟩ := walk.exists_run
  obtain ⟨run', stops, trace, rfl⟩ := ending.exists_rest tracked
  rw [same, settle_of_rest stops, Run.toRest, trace]
  rfl

end DialMenu
