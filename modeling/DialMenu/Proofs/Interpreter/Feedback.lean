import DialMenu.Proofs.Interpreter.Completeness
import DialMenu.Rehearsal.Notebook

/-!
The feedback tag within a turn. The first hop clears it and every raise that fires overwrites it, so whatever the turn
comes to from then on finds the tag of the last raise in the same turn, or none.
-/

namespace DialMenu

/-- A context gives back the tag that was set last. -/
def Context.Lawful (C : Type) [Context C] : Prop :=
  ∀ (tag : Option String) (context : C), Context.feedback (Context.setFeedback tag context) = tag

/-- The tag that the last of the raises left. -/
def lastFeedback (raises : List EntryRaise) : Option String := raises.getLast?.bind EntryRaise.feedback

theorem lastFeedback_append_singleton (raises : List EntryRaise) (r : EntryRaise) :
    lastFeedback (raises ++ [r]) = r.feedback := by
  simp [lastFeedback]

variable {C σ : Type}

/-- Runs actions in their order. -/
def Action.runAll (actions : List (Action C)) (context : C) (event : Event) : C :=
  actions.foldl (fun context action => action.run context event) context

/-- The raise that fires, if the trigger is one. -/
def Machine.State.firing (state : Machine.State C σ) : Trigger → List EntryRaise
  | .raise _ => state.raise.toList
  | .event _ | .done | .error => []

namespace Machine

/-- The raises that led to hops. -/
def raisesOf (machine : Machine C σ) (hops : List Hop) : List EntryRaise :=
  hops.flatMap fun hop => ((machine.state? hop.origin).map fun state => state.firing hop.trigger).getD []

/-- The raise that fires where a turn ends and leads nowhere. -/
def unanswered (machine : Machine C σ) (hops : List Hop) (id : String) : List EntryRaise :=
  match machine.state? id with
  | some state =>
    if state.isFinal || hops.any fun hop => hop.origin = id && hop.isAutomatic then [] else state.raise.toList
  | none => []

/-- The raises that fired in a turn. -/
def fired (machine : Machine C σ) (rest : Rest C σ) : List EntryRaise :=
  machine.raisesOf rest.trace.hops ++ machine.unanswered rest.trace.hops rest.state

/-- No action changes the tag. -/
def KeepsFeedback [Context C] (machine : Machine C σ) : Prop :=
  ∀ id state, machine.state? id = some state → ∀ trigger, ∀ t ∈ state.designated trigger, ∀ action ∈ t.actions,
    ∀ context event, Context.feedback (action.run context event) = Context.feedback context

variable {machine : Machine C σ} {hops : List Hop} {state : State C σ}

theorem raisesOf_append (machine : Machine C σ) (hops more : List Hop) :
    machine.raisesOf (hops ++ more) = machine.raisesOf hops ++ machine.raisesOf more :=
  List.flatMap_append

theorem raisesOf_append_singleton {hop : Hop} (found : machine.state? hop.origin = some state) :
    machine.raisesOf (hops ++ [hop]) = machine.raisesOf hops ++ state.firing hop.trigger := by
  simp [raisesOf, found]

theorem raisesOf_prefix {rest : Rest C σ} (earlier : hops <+: rest.trace.hops) :
    machine.raisesOf hops <+: machine.fired rest := by
  obtain ⟨more, whole⟩ := earlier
  rw [fired, ← whole, raisesOf_append, List.append_assoc]
  exact List.prefix_append _ _

theorem unanswered_of_outside {id : String} (unknown : machine.state? id = none) : machine.unanswered hops id = [] := by
  rw [unanswered, unknown]

theorem unanswered_of_final {id : String} (found : machine.state? id = some state) (final : state.kind = .final) :
    machine.unanswered hops id = [] := by
  simp [unanswered, found, State.isFinal_iff.2 final]

theorem unanswered_of_spent {id : String} (spent : Spent hops id) : machine.unanswered hops id = [] := by
  obtain ⟨hop, mem, origin, automatic⟩ := spent
  have already : (hops.any fun hop => hop.origin = id && hop.isAutomatic) = true :=
    List.any_eq_true.2 ⟨hop, mem, by simp [origin, automatic]⟩
  unfold unanswered
  split
  · rw [already, Bool.or_true, if_pos rfl]
  · rfl

theorem unanswered_of_fresh {id : String} (found : machine.state? id = some state) (proceeds : state.kind ≠ .final)
    (fresh : ¬ Spent hops id) : machine.unanswered hops id = state.raise.toList := by
  have never : (hops.any fun hop => hop.origin = id && hop.isAutomatic) = false := by
    rw [List.any_eq_false]
    intro hop mem holds
    simp only [Bool.and_eq_true, decide_eq_true_eq] at holds
    exact fresh ⟨hop, mem, holds⟩
  simp [unanswered, found, State.isFinal_eq_false_iff.2 proceeds, never]

end Machine

/-- The run keeps its hops, and makes one more if it goes on. -/
def Progress.Extends (run : Run C σ) : Progress C σ → Prop
  | .hop run' => ∃ hop, run'.trace.hops = run.trace.hops ++ [hop]
  | .rest _ run' => run'.trace = run.trace

theorem Interpreter.extends_call (i : Interpreter C σ) (now : Instant) (event : Event) (c : Invocation C σ)
    (run : Run C σ) : (i.call now event c run).Extends run := by
  unfold call
  split
  · dsimp only
    split
    · exact ⟨_, rfl⟩
    · rfl
  · rfl

variable [Context C]

/-- What the functions of a machine are given in a turn once the event has selected a candidate: the contexts on which
actions run, services are called and guards are checked, with the raises that fired before. -/
inductive Sees (i : Interpreter C σ) (now : Instant) (event : Event) (start : Position C σ) :
    List EntryRaise → C → Prop
  | first {state : Machine.State C σ} {t : Transition C} {before after : List (Action C)} {action : Action C} :
      i.machine.state? start.state = some state →
      t.FirstEligible (state.designated (.event event.kind)) start.context event →
      t.actions = before ++ action :: after →
      Sees i now event start [] (Action.runAll before (Context.setFeedback none start.context) event)
  | service {hops : List Hop} {p : Position C σ} {state : Machine.State C σ} {call : Invocation C σ} :
      Walk i now event start hops p → i.machine.state? p.state = some state → state.kind ≠ .final →
      ¬ Spent hops p.state → state.raise = none → state.call = some call →
      Sees i now event start (i.machine.raisesOf hops) p.context
  | guard {hops : List Hop} {p : Position C σ} {state : Machine.State C σ} {trigger : Trigger} {context : C}
      {judged : Event} {env : σ} {t : Transition C} {guard : Guard C} :
      Walk i now event start hops p → i.machine.state? p.state = some state → state.kind ≠ .final →
      ¬ Spent hops p.state → Effect i event p state trigger context judged env → t ∈ state.designated trigger →
      t.guard = some guard → Sees i now event start (i.machine.raisesOf hops ++ state.firing trigger) context
  | action {hops : List Hop} {p : Position C σ} {state : Machine.State C σ} {trigger : Trigger} {context : C}
      {judged : Event} {env : σ} {t : Transition C} {before after : List (Action C)} {action : Action C} :
      Walk i now event start hops p → i.machine.state? p.state = some state → state.kind ≠ .final →
      ¬ Spent hops p.state → Effect i event p state trigger context judged env →
      t.FirstEligible (state.designated trigger) context judged → t.actions = before ++ action :: after →
      Sees i now event start (i.machine.raisesOf hops ++ state.firing trigger) (Action.runAll before context judged)

variable {i : Interpreter C σ} {now : Instant} {event : Event} {start p q : Position C σ} {hops : List Hop}
  {state : Machine.State C σ} {trigger : Trigger} {context : C} {judged : Event} {env : σ} {t : Transition C}
  {run run' : Run C σ} {disposition : Disposition}

theorem feedback_runAll {actions : List (Action C)}
    (kept : ∀ action ∈ actions, ∀ context event,
      Context.feedback (action.run context event) = Context.feedback context) (context : C) (event : Event) :
    Context.feedback (Action.runAll actions context event) = Context.feedback context := by
  induction actions generalizing context with
  | nil => rfl
  | cons action actions ih =>
    obtain ⟨here, later⟩ := List.forall_mem_cons.1 kept
    rw [Action.runAll, List.foldl_cons]
    exact (ih later _).trans (here context event)

/-- As many actions of a candidate as one likes leave the tag as it is. -/
theorem Machine.KeepsFeedback.runAll (kept : i.machine.KeepsFeedback) {id : String}
    (found : i.machine.state? id = some state) (mem : t ∈ state.designated trigger) {actions : List (Action C)}
    (some : actions ⊆ t.actions) (context : C) (event : Event) :
    Context.feedback (Action.runAll actions context event) = Context.feedback context :=
  feedback_runAll (fun action inside => kept id state found trigger t mem action (some inside)) context event

/-- A raise sets the tag, and an answered call leaves it as it is. -/
theorem Effect.feedback (effect : Effect i event p state trigger context judged env) (lawful : Context.Lawful C)
    {raises : List EntryRaise} (before : Context.feedback p.context = lastFeedback raises) :
    Context.feedback context = lastFeedback (raises ++ state.firing trigger) := by
  cases effect with
  | raise raising =>
    rw [lawful, Machine.State.firing, raising, Option.toList_some, lastFeedback_append_singleton]
  | done | error =>
    rw [Machine.State.firing, List.append_nil]
    exact before

/-- Wherever a turn passes the tag is the one of the last raise. -/
theorem Walk.feedback (walk : Walk i now event start hops p) (lawful : Context.Lawful C)
    (kept : i.machine.KeepsFeedback) : Context.feedback p.context = lastFeedback (i.machine.raisesOf hops) := by
  induction walk with
  | @event state t after found first ran =>
    obtain rfl := Transition.sequence_iff.1 ran
    have cleared : Context.feedback (t.apply (Context.setFeedback none start.context) event) = none :=
      (kept.runAll found first.mem (List.Subset.refl _) _ _).trans (lawful none _)
    rw [cleared]
    simp [Machine.raisesOf, found, Machine.State.firing, lastFeedback]
  | @automatic hops p state trigger context judged env t after walk found proceeds fresh effect first ran ih =>
    obtain rfl := Transition.sequence_iff.1 ran
    have applied : Context.feedback (t.apply context judged) = Context.feedback context :=
      kept.runAll found first.mem (List.Subset.refl _) _ _
    rw [applied, Machine.raisesOf_append_singleton found, effect.feedback lawful ih]

/-- An effect that leads nowhere is a raise, or nothing has fired. -/
theorem Effect.unanswered_eq (effect : Effect i event p state trigger context judged env)
    (found : i.machine.state? p.state = some state) (proceeds : state.kind ≠ .final) (fresh : ¬ Spent hops p.state) :
    i.machine.unanswered hops p.state = state.firing trigger := by
  rw [Machine.unanswered_of_fresh found proceeds fresh]
  cases effect with
  | raise => rfl
  | done quiet | error quiet =>
    rw [quiet]
    rfl

theorem Ending.feedback (ending : Ending i event hops p disposition q) (lawful : Context.Lawful C)
    (before : Context.feedback p.context = lastFeedback (i.machine.raisesOf hops)) :
    Context.feedback q.context = lastFeedback (i.machine.raisesOf hops ++ i.machine.unanswered hops q.state) := by
  cases ending with
  | outside unknown => rw [Machine.unanswered_of_outside unknown, List.append_nil, before]
  | final found final => rw [Machine.unanswered_of_final found final, List.append_nil, before]
  | waiting found proceeds quiet _ =>
    by_cases spent : Spent hops p.state
    · rw [Machine.unanswered_of_spent spent, List.append_nil, before]
    · rw [Machine.unanswered_of_fresh found proceeds spent, quiet, Option.toList_none, List.append_nil, before]
  | again _ _ _ spent => rw [Machine.unanswered_of_spent spent, List.append_nil, before]
  | unrouted found proceeds fresh effect _ =>
    rw [effect.unanswered_eq found proceeds fresh]
    exact effect.feedback lawful before

namespace Interpreter

theorem extends_raise (r : EntryRaise) : (raise now event state r run).Extends run := by
  unfold raise
  split
  · dsimp only
    split
    · exact ⟨_, rfl⟩
    · rfl
  · rfl

theorem extends_next (i : Interpreter C σ) (now : Instant) (event : Event) (run : Run C σ) :
    (i.next now event run).Extends run := by
  unfold next
  split
  · rfl
  · split
    · rfl
    · split
      · exact extends_raise _
      · exact i.extends_call _ _ _ _
      · rfl

/-- The hops that are made stay. -/
theorem prefix_settle (i : Interpreter C σ) (now : Instant) (event : Event) (run : Run C σ) :
    run.trace.hops <+: (i.settle now event run).trace.hops := by
  induction run using settle.induct i now event with
  | case1 run disposition run' stops =>
    have same := i.extends_next now event run
    rw [stops] at same
    have kept : (i.settle now event run).trace = run.trace := (congrArg Rest.trace (settle_of_rest stops)).trans same
    exact kept ▸ List.prefix_refl _
  | case2 run run' goes ih =>
    have longer := i.extends_next now event run
    rw [goes] at longer
    obtain ⟨hop, longer⟩ := longer
    rw [settle_of_hop goes]
    rw [longer] at ih
    exact (List.prefix_append _ [hop]).trans ih

end Interpreter

/-- The hops of a walk are hops of its turn. -/
theorem Walk.hops_isPrefix (walk : Walk i now event start hops p) :
    hops <+: (i.step now start.state start.context event start.env).trace.hops := by
  obtain ⟨run, -, rfl, -, same⟩ := walk.exists_run
  rw [same]
  exact i.prefix_settle now event run

/-- The raises of a walk fire in its turn. -/
theorem Walk.raisesOf_prefix (walk : Walk i now event start hops p) :
    i.machine.raisesOf hops <+: i.machine.fired (i.step now start.state start.context event start.env) :=
  Machine.raisesOf_prefix walk.hops_isPrefix

/-- So does the raise of an effect, whether it leads on or not. -/
theorem Effect.firing_prefix (effect : Effect i event p state trigger context judged env)
    (walk : Walk i now event start hops p) (found : i.machine.state? p.state = some state)
    (proceeds : state.kind ≠ .final) (fresh : ¬ Spent hops p.state) :
    i.machine.raisesOf hops ++ state.firing trigger <+:
      i.machine.fired (i.step now start.state start.context event start.env) := by
  cases selected : Transition.select (state.designated trigger) context judged with
  | some t =>
    have first := Transition.select_eq_some_iff.1 selected
    have longer := walk.automatic found proceeds fresh effect first (t.sequence_apply context judged)
    have fires := longer.raisesOf_prefix
    rwa [Machine.raisesOf_append_singleton found] at fires
  | none =>
    have ending : Ending i event hops p .unresolved _ :=
      .unrouted found proceeds fresh effect (Transition.select_eq_none_iff.1 selected)
    have all : i.machine.fired (i.step now start.state start.context event start.env) =
        i.machine.raisesOf hops ++ state.firing trigger :=
      (congrArg i.machine.fired (Interpreter.step_of_walk walk ending)).trans
        (congrArg (i.machine.raisesOf hops ++ ·) (effect.unanswered_eq found proceeds fresh))
    exact all ▸ List.prefix_refl _

/-- Whatever is seen carries the tag of the last raise in the turn. -/
theorem Sees.feedback {raises : List EntryRaise} {seen : C} (sees : Sees i now event start raises seen)
    (lawful : Context.Lawful C) (kept : i.machine.KeepsFeedback) :
    raises <+: i.machine.fired (i.step now start.state start.context event start.env) ∧
      Context.feedback seen = lastFeedback raises := by
  have part {before after : List (Action C)} {action : Action C} {t : Transition C}
      (split : t.actions = before ++ action :: after) : before ⊆ t.actions :=
    split ▸ List.subset_append_left _ _
  cases sees with
  | first found first split =>
    exact ⟨List.nil_prefix, (kept.runAll found first.mem (part split) _ _).trans (lawful none _)⟩
  | service walk => exact ⟨walk.raisesOf_prefix, walk.feedback lawful kept⟩
  | guard walk found proceeds fresh effect =>
    exact ⟨effect.firing_prefix walk found proceeds fresh, effect.feedback lawful (walk.feedback lawful kept)⟩
  | action walk found proceeds fresh effect first split =>
    refine ⟨effect.firing_prefix walk found proceeds fresh, ?_⟩
    rw [kept.runAll found first.mem (part split)]
    exact effect.feedback lawful (walk.feedback lawful kept)

/-- Contexts that are alike without their tags go on alike, once the event has selected the same candidate on both. -/
theorem Interpreter.step_eq_of_cleared {id : String} {other : C} (found : i.machine.state? id = some state)
    (first : t.FirstEligible (state.on event.kind) context event)
    (first' : t.FirstEligible (state.on event.kind) other event)
    (alike : Context.setFeedback none other = Context.setFeedback none context) :
    i.step now id other event env = i.step now id context event env := by
  simp only [step, found, Transition.select_eq_some_iff.2 first, Transition.select_eq_some_iff.2 first', alike]

/-- Feedback is transient. A turn without a hop leaves the tag as it is. Any other turn leaves the tag of the last raise
that fired in it, or none if there was no raise; and whatever its actions, its services and its guards behind the first
selection are given carries the tag of the last raise in this turn until then, or none. The tag of an earlier turn makes
no difference any more. -/
theorem Interpreter.feedback_transient (i : Interpreter C σ) (lawful : Context.Lawful C)
    (kept : i.machine.KeepsFeedback) (now : Instant) (state : String) (context : C) (event : Event) (env : σ) :
    let rest := i.step now state context event env
    (rest.trace.hops = [] → Context.feedback rest.context = Context.feedback context) ∧
      (rest.trace.hops ≠ [] → Context.feedback rest.context = lastFeedback (i.machine.fired rest)) ∧
      (∀ raises seen, Sees i now event ⟨state, context, env⟩ raises seen →
        raises <+: i.machine.fired rest ∧ Context.feedback seen = lastFeedback raises) ∧
      ∀ (current : Machine.State C σ) (t : Transition C) (other : C), i.machine.state? state = some current →
        t.FirstEligible (current.on event.kind) context event → t.FirstEligible (current.on event.kind) other event →
        Context.setFeedback none other = Context.setFeedback none context →
        i.step now state other event env = rest := by
  intro rest
  have tag : (rest.trace.hops = [] ∧ rest.context = context) ∨
      rest.trace.hops ≠ [] ∧ Context.feedback rest.context = lastFeedback (i.machine.fired rest) := by
    rcases i.step_cases now state context event env with
      ⟨-, same⟩ | ⟨current, -, -, same⟩ | ⟨current, last, -, -, walk, ending⟩
    · exact .inl (by simp [rest, same])
    · exact .inl (by simp [rest, same])
    · obtain ⟨first, later, hops, -⟩ := walk.head
      refine .inr ⟨?_, ending.feedback lawful (walk.feedback lawful kept)⟩
      rw [hops]
      exact List.cons_ne_nil _ _
  refine ⟨fun none => ?_, fun some => ?_, fun _ _ sees => sees.feedback lawful kept,
    fun _ _ _ found first first' alike => step_eq_of_cleared found first first' alike⟩
  · rcases tag with ⟨-, same⟩ | ⟨some, -⟩
    · rw [same]
    · exact absurd none some
  · rcases tag with ⟨none, -⟩ | ⟨-, last⟩
    · exact absurd none some
    · exact last

/-- Notes the input. -/
def noteInput : Action Rehearsal.Notebook where
  name := "note"
  run notebook event := { notebook with notes := notebook.notes ++ [event.input] }

/-- A menu that sends every input back with a tag, and notes it on both ways. -/
def retryMachine : Machine Rehearsal.Notebook Unit where
  id := "demo"
  initial := "menu"
  states := ⟨[
    ("check", ⟨"check", .normal, [], some { kind := .retry, feedback := some "invalid" }, none,
      fun _ => [{ target := "menu", actions := [noteInput] }]⟩),
    ("menu", ⟨"menu", .normal, [], none, none, fun _ => [{ target := "check", actions := [noteInput] }]⟩)], by decide⟩

theorem feedback_transient_retry :
    Context.Lawful Rehearsal.Notebook ∧ retryMachine.KeepsFeedback ∧
      Context.feedback (Interpreter.step ⟨retryMachine, ServiceError.classify⟩ .epoch "menu"
        ({ feedback := some "old" } : Rehearsal.Notebook) { kind := .transit, input := "7" } ()).context =
          some "invalid" := by
  have lawful : Context.Lawful Rehearsal.Notebook := fun _ _ => rfl
  have kept : retryMachine.KeepsFeedback := by
    intro id state found trigger t mem action inside context event
    have listed := (Table.mem_entries_iff _ _ _).2 found
    obtain rfl : action = noteInput := by
      rcases List.mem_pair.1 listed with here | here <;> cases here <;> cases trigger <;>
        simp_all [Machine.State.designated]
    rw [noteInput]
    rfl
  refine ⟨lawful, kept, ?_⟩
  have turn := Interpreter.feedback_transient ⟨retryMachine, ServiceError.classify⟩ lawful kept .epoch "menu"
    { feedback := some "old" } { kind := .transit, input := "7" } ()
  rw [turn.2.1 (by decide +kernel)]
  decide +kernel

end DialMenu
