import DialMenu.Interpreter

/-!
The clock of a turn only dates its hops. A step at another time is the same step with other dates.
-/

namespace DialMenu

variable {C σ : Type}

/-- The trace with every hop at the given time. -/
def Trace.retimed (now : Instant) (trace : Trace) : Trace where
  hops := trace.hops.map fun hop => { hop with timestamp := now }

def Run.retimed (now : Instant) (run : Run C σ) : Run C σ := { run with trace := run.trace.retimed now }

def Progress.retimed (now : Instant) : Progress C σ → Progress C σ
  | .hop run => .hop (run.retimed now)
  | .rest disposition run => .rest disposition (run.retimed now)

def Rest.retimed (now : Instant) (rest : Rest C σ) : Rest C σ := { rest with trace := rest.trace.retimed now }

theorem Trace.retimed_record (now : Instant) (trace : Trace) (hop : Hop) :
    (trace.record hop).retimed now = (trace.retimed now).record { hop with timestamp := now } := by
  simp [Trace.retimed, Trace.record]

theorem Run.retimed_take (run : Run C σ) (now earlier : Instant) (t : Transition C) (event : Event)
    (trigger : Trigger) :
    (run.take earlier t event trigger).retimed now = (run.retimed now).take now t event trigger := by
  simp only [Run.take, Run.retimed, Trace.retimed_record]

namespace Interpreter

variable [Context C] {now earlier : Instant} {event : Event} {run : Run C σ}

theorem retimed_raise {state : Machine.State C σ} {r : EntryRaise} :
    (raise earlier event state r run).retimed now = raise now event state r (run.retimed now) := by
  have same : (run.retimed now).state ∈ (run.retimed now).mayRaise ↔ run.state ∈ run.mayRaise := Iff.rfl
  by_cases may : run.state ∈ run.mayRaise
  · rw [raise, raise, if_pos may, if_pos (same.2 may)]
    simp only [Run.retimed]
    split
    · exact congrArg Progress.hop (Run.retimed_take _ now earlier _ _ _)
    · rfl
  · rw [raise, raise, if_neg may, if_neg (mt same.1 may)]
    rfl

omit [Context C] in
theorem retimed_call {i : Interpreter C σ} {c : Invocation C σ} :
    (i.call earlier event c run).retimed now = i.call now event c (run.retimed now) := by
  have same : (run.retimed now).state ∈ (run.retimed now).mayCall ↔ run.state ∈ run.mayCall := Iff.rfl
  by_cases may : run.state ∈ run.mayCall
  · rw [call, call, if_pos may, if_pos (same.2 may)]
    simp only [Run.retimed]
    cases (c.service run.context event run.env).result with
    | ok value =>
      dsimp only
      split
      · exact congrArg Progress.hop (Run.retimed_take _ now earlier _ _ _)
      · rfl
    | error err =>
      dsimp only
      split
      · exact congrArg Progress.hop (Run.retimed_take _ now earlier _ _ _)
      · rfl
  · rw [call, call, if_neg may, if_neg (mt same.1 may)]
    rfl

theorem retimed_next {i : Interpreter C σ} :
    (i.next earlier event run).retimed now = i.next now event (run.retimed now) := by
  have state : (run.retimed now).state = run.state := rfl
  unfold next
  rw [state]
  cases i.machine.state? run.state with
  | none => rfl
  | some state =>
    dsimp only
    cases state.isFinal with
    | true => rfl
    | false =>
      rw [if_neg Bool.false_ne_true, if_neg Bool.false_ne_true]
      cases state.raise with
      | some r => exact retimed_raise
      | none =>
        cases state.call with
        | some c => exact retimed_call
        | none => rfl

/-- A turn under way comes to rest in the same way at any time. -/
theorem retimed_settle {i : Interpreter C σ} :
    (i.settle earlier event run).retimed now = i.settle now event (run.retimed now) := by
  induction run using settle.induct i earlier event with
  | case1 run disposition run' progress =>
    have there : i.next now event (run.retimed now) = .rest disposition (run'.retimed now) := by
      rw [← retimed_next, progress]
      rfl
    rw [settle, progress, settle, there]
    rfl
  | case2 run run' progress ih =>
    have there : i.next now event (run.retimed now) = .hop (run'.retimed now) := by
      rw [← retimed_next, progress]
      rfl
    rw [settle, progress, settle, there]
    exact ih

/-- A step at another time makes the same hops, dated otherwise, and leaves everything else alike. -/
theorem retimed_step (i : Interpreter C σ) (now earlier : Instant) (state : String) (context : C) (event : Event)
    (env : σ) : (i.step earlier state context event env).retimed now = i.step now state context event env := by
  unfold step
  cases i.machine.state? state with
  | none => rfl
  | some current =>
    dsimp only
    cases Transition.select (current.on event.kind) context event with
    | none => rfl
    | some t =>
      dsimp only
      rw [retimed_settle, Run.retimed_take]
      rfl

end Interpreter

end DialMenu
