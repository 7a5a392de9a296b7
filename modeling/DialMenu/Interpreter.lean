import DialMenu.Machine
import DialMenu.Trace

/-!
One step of a conversation. The event selects a candidate of the state it arrives in; from there the machine
goes on by itself, through entry raises and service calls, until it comes to rest. Within one turn a state
raises at most once and calls at most once, so every turn ends: `Run.pending` counts what is left.
-/

namespace DialMenu

/-- Why a turn ends. -/
inductive Disposition where
  /-- The state waits for input. -/
  | waiting
  /-- The state is final. -/
  | finished
  /-- The machine has no place for the conversation. -/
  | unresolved
deriving DecidableEq, Inhabited

def Disposition.isTerminal (disposition : Disposition) : Bool := disposition ≠ .waiting

structure Interpreter (C σ : Type) where
  machine : Machine C σ
  /-- What guards see of a rejected call. -/
  classify : ServiceError → Failure := ServiceError.classify

/-- Where a step leaves a conversation. -/
structure Rest (C σ : Type) where
  state : String
  context : C
  disposition : Disposition
  trace : Trace
  env : σ

/-- A turn under way. -/
structure Run (C σ : Type) where
  state : String
  context : C
  env : σ
  trace : Trace
  /-- The states that may still raise in this turn. -/
  mayRaise : List String
  /-- The states that may still call in this turn. -/
  mayCall : List String

/-- What becomes of a turn under way. -/
inductive Progress (C σ : Type) where
  | hop (run : Run C σ)
  | rest (disposition : Disposition) (run : Run C σ)

variable {C σ : Type}

namespace Run

/-- The raises and calls that are left. -/
def pending (run : Run C σ) : Nat := run.mayRaise.length + run.mayCall.length

/-- Takes a candidate. -/
def take (run : Run C σ) (now : Instant) (t : Transition C) (event : Event) (trigger : Trigger) : Run C σ :=
  { run with
    state := t.target
    context := t.apply run.context event
    trace := run.trace.record { origin := run.state, target := t.target, trigger, timestamp := now } }

def toRest (run : Run C σ) (disposition : Disposition) : Rest C σ :=
  { state := run.state, context := run.context, disposition, trace := run.trace, env := run.env }

end Run

namespace Interpreter

/-- Fires the entry raise of the state that the run is in. The raised event keeps the input of the turn. -/
def raise [Context C] (now : Instant) (event : Event) (state : Machine.State C σ) (raise : EntryRaise)
    (run : Run C σ) : Progress C σ :=
  if run.state ∈ run.mayRaise then
    let raised : Event := { kind := raise.kind, input := event.input, feedback := raise.feedback }
    let run := { run with
      context := Context.setFeedback raise.feedback run.context
      mayRaise := run.mayRaise.erase run.state }
    match Transition.select (state.on raise.kind) run.context raised with
    | some t => .hop (run.take now t raised (.raise raise.kind))
    | none => .rest .unresolved run
  else .rest .unresolved run

/-- Calls the service of the state that the run is in. -/
def call (i : Interpreter C σ) (now : Instant) (event : Event) (call : Invocation C σ) (run : Run C σ) :
    Progress C σ :=
  if run.state ∈ run.mayCall then
    let answer := call.service run.context event run.env
    let run := { run with env := answer.env, mayCall := run.mayCall.erase run.state }
    let (outcome, candidates, trigger) := match answer.result with
      | .ok value => (Outcome.success value, call.onDone, Trigger.done)
      | .error err => (Outcome.failure (i.classify err), call.onError, Trigger.error)
    let resolved := event.withOutcome outcome
    match Transition.select candidates run.context resolved with
    | some t => .hop (run.take now t resolved trigger)
    | none => .rest .unresolved run
  else .rest .unresolved run

variable [Context C]

/-- What the machine does by itself where the run stands. -/
def next (i : Interpreter C σ) (now : Instant) (event : Event) (run : Run C σ) : Progress C σ :=
  match i.machine.state? run.state with
  | none => .rest .unresolved run
  | some state =>
    if state.isFinal then .rest .finished run
    else
      match state.raise, state.call with
      | some r, _ => raise now event state r run
      | none, some c => i.call now event c run
      | none, none => .rest .waiting run

theorem pending_lt_of_raise {now : Instant} {event : Event} {state : Machine.State C σ} {r : EntryRaise}
    {run run' : Run C σ} (hop : raise now event state r run = .hop run') : run'.pending < run.pending := by
  unfold raise at hop
  split at hop
  · rename_i mem
    have := List.length_erase_of_mem mem
    have := List.length_pos_of_mem mem
    dsimp only at hop
    split at hop
    · cases hop
      simp only [Run.take, Run.pending]
      omega
    · cases hop
  · cases hop

omit [Context C] in
theorem pending_lt_of_call {i : Interpreter C σ} {now : Instant} {event : Event} {c : Invocation C σ}
    {run run' : Run C σ} (hop : i.call now event c run = .hop run') : run'.pending < run.pending := by
  unfold call at hop
  split at hop
  · rename_i mem
    have := List.length_erase_of_mem mem
    have := List.length_pos_of_mem mem
    dsimp only at hop
    split at hop
    · cases hop
      simp only [Run.take, Run.pending]
      omega
    · cases hop
  · cases hop

/-- Every hop uses up a raise or a call. -/
theorem pending_lt_of_next {i : Interpreter C σ} {now : Instant} {event : Event} {run run' : Run C σ}
    (hop : i.next now event run = .hop run') : run'.pending < run.pending := by
  unfold next at hop
  split at hop
  · cases hop
  · split at hop
    · cases hop
    · split at hop
      · exact pending_lt_of_raise hop
      · exact pending_lt_of_call hop
      · cases hop

/-- Goes on until the machine comes to rest. -/
def settle (i : Interpreter C σ) (now : Instant) (event : Event) (run : Run C σ) : Rest C σ :=
  match _progress : i.next now event run with
  | .rest disposition run => run.toRest disposition
  | .hop run => i.settle now event run
termination_by run.pending
decreasing_by exact pending_lt_of_next _progress

/-- Advances a conversation by one event. An event without an eligible candidate is ignored. -/
def step (i : Interpreter C σ) (now : Instant) (state : String) (context : C) (event : Event) (env : σ) : Rest C σ :=
  match i.machine.state? state with
  | none => { state, context, disposition := .unresolved, trace := {}, env }
  | some current =>
    match Transition.select (current.on event.kind) context event with
    | none =>
      { state, context, disposition := if current.isFinal then .finished else .waiting, trace := {}, env }
    | some t =>
      let run : Run C σ :=
        { state, context := Context.setFeedback none context, env, trace := {},
          mayRaise := i.machine.raising, mayCall := i.machine.calling }
      i.settle now event (run.take now t event (.event event.kind))

end Interpreter

end DialMenu
