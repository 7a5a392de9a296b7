import DialMenu.Interpreter
import Mathlib.Data.List.Chain

/-!
A turn as a relation: which hops a machine may make and where a turn may end, said by the hops made so far. What a
candidate asks for and what it does to the context are relations too. The hops of a walk are linked, and no state
goes on by itself twice.
-/

namespace DialMenu

variable {C σ : Type}

/-- One action after the other, each on the context that the one before it returned. -/
inductive Action.Sequence (event : Event) : List (Action C) → C → C → Prop
  | nil {context : C} : Sequence event [] context context
  | cons {action : Action C} {actions : List (Action C)} {context after : C} :
      Sequence event actions (action.run context event) after → Sequence event (action :: actions) context after

namespace Transition

/-- A candidate performs its actions as they are declared. -/
theorem sequence_iff {t : Transition C} {context after : C} {event : Event} :
    Action.Sequence event t.actions context after ↔ t.apply context event = after := by
  unfold apply
  generalize t.actions = actions
  constructor
  · intro sequence
    induction sequence with
    | nil => rfl
    | cons _ ih => exact ih
  · rintro rfl
    induction actions generalizing context with
    | nil => exact .nil
    | cons action actions ih => exact .cons ih

theorem sequence_apply (t : Transition C) (context : C) (event : Event) :
    Action.Sequence event t.actions context (t.apply context event) := sequence_iff.2 rfl

/-- The candidate has no guard, or its guard holds. -/
def Admits (t : Transition C) (context : C) (event : Event) : Prop :=
  ∀ guard, t.guard = some guard → guard.check context event = true

theorem eligible_iff {t : Transition C} {context : C} {event : Event} :
    t.eligible context event = true ↔ t.Admits context event := by
  unfold eligible Admits
  exact Option.all_eq_true _ _

theorem eligible_eq_false_iff {t : Transition C} {context : C} {event : Event} :
    t.eligible context event = false ↔ ¬ t.Admits context event := by
  rw [← eligible_iff, Bool.not_eq_true]

theorem admits_of_free {t : Transition C} (free : t.guard = none) (context : C) (event : Event) :
    t.Admits context event := by
  intro guard guarded
  rw [free] at guarded
  cases guarded

/-- `t` is eligible, and no candidate that is declared before it is. -/
def FirstEligible (candidates : List (Transition C)) (context : C) (event : Event) (t : Transition C) : Prop :=
  ∃ before after, candidates = before ++ t :: after ∧ t.Admits context event ∧
    ∀ u ∈ before, ¬ u.Admits context event

/-- No candidate is eligible. -/
def NoneEligible (candidates : List (Transition C)) (context : C) (event : Event) : Prop :=
  ∀ t ∈ candidates, ¬ t.Admits context event

theorem select_eq_some_iff {candidates : List (Transition C)} {context : C} {event : Event} {t : Transition C} :
    select candidates context event = some t ↔ FirstEligible candidates context event t := by
  unfold select FirstEligible
  rw [List.find?_eq_some_iff_append]
  constructor
  · rintro ⟨eligible, before, after, split, earlier⟩
    exact ⟨before, after, split, eligible_iff.1 eligible,
      fun u mem => eligible_eq_false_iff.1 (by simpa using earlier u mem)⟩
  · rintro ⟨before, after, split, admits, earlier⟩
    exact ⟨eligible_iff.2 admits, before, after, split,
      fun u mem => by simpa using eligible_eq_false_iff.2 (earlier u mem)⟩

theorem select_eq_none_iff {candidates : List (Transition C)} {context : C} {event : Event} :
    select candidates context event = none ↔ NoneEligible candidates context event := by
  unfold select NoneEligible
  rw [List.find?_eq_none]
  exact forall₂_congr fun _ _ => by rw [eligible_iff]

theorem FirstEligible.mem {candidates : List (Transition C)} {context : C} {event : Event} {t : Transition C}
    (first : FirstEligible candidates context event t) : t ∈ candidates := by
  obtain ⟨before, after, rfl, -, -⟩ := first
  simp

theorem FirstEligible.not_noneEligible {candidates : List (Transition C)} {context : C} {event : Event}
    {t : Transition C} (first : FirstEligible candidates context event t) :
    ¬ NoneEligible candidates context event := by
  intro refused
  obtain ⟨_, _, _, admits, _⟩ := id first
  exact refused t first.mem admits

end Transition

namespace Machine.State

variable {state : Machine.State C σ}

theorem isFinal_iff : state.isFinal = true ↔ state.kind = .final := decide_eq_true_iff

theorem isFinal_eq_false_iff : state.isFinal = false ↔ state.kind ≠ .final := decide_eq_false_iff_not

end Machine.State

/-- The candidates of a state that a trigger designates. -/
def Machine.State.designated (state : Machine.State C σ) : Trigger → List (Transition C)
  | .event kind | .raise kind => state.on kind
  | .done => (state.call.map Invocation.onDone).getD []
  | .error => (state.call.map Invocation.onError).getD []

/-- The machine made the hop by itself. -/
def Hop.isAutomatic (hop : Hop) : Bool := hop.trigger.isRaise || hop.trigger.isOutcome

/-- Where a conversation stands within a turn. -/
structure Position (C σ : Type) where
  state : String
  context : C
  env : σ

/-- A state goes on by itself once in a turn: these hops leave it already. -/
def Spent (hops : List Hop) (state : String) : Prop := ∃ hop ∈ hops, hop.origin = state ∧ hop.isAutomatic = true

/-- What the entry of a state causes: the trigger of the hop that is to come, and the context, the event and the
environment that its candidates meet. A raise comes before a call. -/
inductive Effect [Context C] (i : Interpreter C σ) (event : Event) (p : Position C σ) (state : Machine.State C σ) :
    Trigger → C → Event → σ → Prop
  | raise {r : EntryRaise} : state.raise = some r →
      Effect i event p state (.raise r.kind) (Context.setFeedback r.feedback p.context)
        { kind := r.kind, input := event.input, feedback := r.feedback } p.env
  | done {call : Invocation C σ} {value : Value} : state.raise = none → state.call = some call →
      (call.service p.context event p.env).result = .ok value →
      Effect i event p state .done p.context
        { kind := event.kind, input := event.input, feedback := event.feedback, outcome := some (.success value) }
        (call.service p.context event p.env).env
  | error {call : Invocation C σ} {err : ServiceError} : state.raise = none → state.call = some call →
      (call.service p.context event p.env).result = .error err →
      Effect i event p state .error p.context
        { kind := event.kind, input := event.input, feedback := event.feedback,
          outcome := some (.failure (i.classify err)) }
        (call.service p.context event p.env).env

/-- The hops of a turn so far and the position they lead to. The event selects the first one, on the context as
it is given, and its actions run on that context without its tag; every other one leaves the state that was just
entered, and its actions run on the context that it was selected on. -/
inductive Walk [Context C] (i : Interpreter C σ) (now : Instant) (event : Event) (start : Position C σ) :
    List Hop → Position C σ → Prop
  | event {state : Machine.State C σ} {t : Transition C} {after : C} : i.machine.state? start.state = some state →
      t.FirstEligible (state.designated (.event event.kind)) start.context event →
      Action.Sequence event t.actions (Context.setFeedback none start.context) after →
      Walk i now event start
        [{ origin := start.state, target := t.target, trigger := .event event.kind, timestamp := now }]
        ⟨t.target, after, start.env⟩
  | automatic {hops : List Hop} {p : Position C σ} {state : Machine.State C σ} {trigger : Trigger} {context : C}
      {judged : Event} {env : σ} {t : Transition C} {after : C} : Walk i now event start hops p →
      i.machine.state? p.state = some state → state.kind ≠ .final → ¬ Spent hops p.state →
      Effect i event p state trigger context judged env →
      t.FirstEligible (state.designated trigger) context judged → Action.Sequence judged t.actions context after →
      Walk i now event start (hops ++ [{ origin := p.state, target := t.target, trigger, timestamp := now }])
        ⟨t.target, after, env⟩

/-- How a turn ends at a position, and how it leaves it. -/
inductive Ending [Context C] (i : Interpreter C σ) (event : Event) (hops : List Hop) (p : Position C σ) :
    Disposition → Position C σ → Prop
  | outside : i.machine.state? p.state = none → Ending i event hops p .unresolved p
  | final {state : Machine.State C σ} : i.machine.state? p.state = some state → state.kind = .final →
      Ending i event hops p .finished p
  | waiting {state : Machine.State C σ} : i.machine.state? p.state = some state → state.kind ≠ .final →
      state.raise = none → state.call = none → Ending i event hops p .waiting p
  | again {state : Machine.State C σ} : i.machine.state? p.state = some state → state.kind ≠ .final →
      (state.raise.isSome ∨ state.call.isSome) → Spent hops p.state → Ending i event hops p .unresolved p
  | unrouted {state : Machine.State C σ} {trigger : Trigger} {context : C} {judged : Event} {env : σ} :
      i.machine.state? p.state = some state → state.kind ≠ .final → ¬ Spent hops p.state →
      Effect i event p state trigger context judged env →
      Transition.NoneEligible (state.designated trigger) context judged →
      Ending i event hops p .unresolved ⟨p.state, context, env⟩

theorem spent_append_singleton {hops : List Hop} {hop : Hop} {id : String} :
    Spent (hops ++ [hop]) id ↔ Spent hops id ∨ hop.origin = id ∧ hop.isAutomatic = true := by
  simp [Spent, or_and_right, exists_or]

section Shape

variable [Context C] {i : Interpreter C σ} {now : Instant} {event : Event} {start p : Position C σ}
  {hops : List Hop}

theorem Effect.isAutomatic {state : Machine.State C σ} {trigger : Trigger} {context : C} {judged : Event} {env : σ}
    (effect : Effect i event p state trigger context judged env) :
    (trigger.isRaise || trigger.isOutcome) = true := by
  cases effect <;> rfl

theorem Walk.head (walk : Walk i now event start hops p) :
    ∃ first rest, hops = first :: rest ∧ first.origin = start.state ∧ first.trigger = .event event.kind := by
  induction walk with
  | event => exact ⟨_, [], rfl, rfl, rfl⟩
  | automatic _ _ _ _ _ _ _ ih =>
    obtain ⟨first, rest, rfl, origin, trigger⟩ := ih
    exact ⟨first, _, rfl, origin, trigger⟩

theorem Walk.last (walk : Walk i now event start hops p) : hops.getLast?.map Hop.target = some p.state := by
  cases walk <;> simp

/-- Every hop leaves the state that the hop before it entered. -/
theorem Walk.linked (walk : Walk i now event start hops p) :
    hops.IsChain fun hop next => next.origin = hop.target := by
  induction walk with
  | event => exact .singleton _
  | @automatic hops p state trigger context judged env t after walk found proceeds fresh effect first ran ih =>
    refine List.isChain_append.2 ⟨ih, .singleton _, ?_⟩
    intro hop final next here
    have entered := walk.last
    rw [Option.mem_def.1 final] at entered
    cases Option.some.inj here
    exact (Option.some.inj entered).symm

/-- A walk makes no second automatic hop from a state. -/
theorem Walk.nodup_origins (walk : Walk i now event start hops p) :
    ((hops.filter Hop.isAutomatic).map Hop.origin).Nodup := by
  induction walk with
  | event => simp [Hop.isAutomatic, Trigger.isRaise, Trigger.isOutcome]
  | @automatic hops p state trigger context judged env t after walk found proceeds fresh effect first ran ih =>
    have made : Hop.isAutomatic ⟨p.state, t.target, trigger, now⟩ = true := effect.isAutomatic
    rw [List.filter_append, List.filter_cons_of_pos made, List.filter_nil, List.map_append, List.nodup_append]
    refine ⟨ih, by simp, ?_⟩
    rintro id mem last here rfl
    obtain ⟨hop, kept, same⟩ := List.mem_map.1 mem
    obtain ⟨inside, automatic⟩ := List.mem_filter.1 kept
    refine fresh ⟨hop, inside, ?_, automatic⟩
    simpa [same] using here

theorem Ending.state_eq {q : Position C σ} {disposition : Disposition}
    (ending : Ending i event hops p disposition q) : q.state = p.state := by
  cases ending <;> rfl

end Shape

end DialMenu
