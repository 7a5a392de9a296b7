import DialMenu.Session.Switchboard
import Mathlib.Data.List.Induction
import Mathlib.Logic.Function.Basic

/-!
Requests on one session id under way. Each of them loads, advances and commits, and nothing keeps the others from doing
so in between. Requests that leave each other in peace are handled one after another.
-/

namespace DialMenu

variable {ι C σ S : Type}

/-- How far a request has come. -/
inductive Phase (C : Type) where
  | arrived
  | loaded (session : Session C)
  | turned (turn : Turn C)
  | committed (turn : Turn C)
  | failed (err : SessionError)

/-- A request, with what it reads from outside for each of its parts. -/
structure Request (ι : Type) where
  client : ι
  loading : Stamp
  advancing : Stamp
  committing : Stamp

/-- The moves of a request that no other gets in the way of. -/
def Request.steps (request : Request ι) : List (ι × Stamp) :=
  [(request.client, request.loading), (request.client, request.advancing), (request.client, request.committing)]

/-- Requests on one session id under way. -/
structure Rush (ι C σ : Type) where
  store : MemoryStore
  env : σ
  phase : ι → Phase C := fun _ => .arrived
  /-- The turn that was committed last, and when. -/
  last : Option (Turn C × Instant) := none

namespace Rush

variable [DecidableEq ι]

/-- A request comes to another phase. -/
def enter (rush : Rush ι C σ) (client : ι) (phase : Phase C) : Rush ι C σ :=
  { rush with phase := Function.update rush.phase client phase }

@[simp] theorem enter_store (rush : Rush ι C σ) (client : ι) (phase : Phase C) :
    (rush.enter client phase).store = rush.store := rfl

@[simp] theorem enter_last (rush : Rush ι C σ) (client : ι) (phase : Phase C) :
    (rush.enter client phase).last = rush.last := rfl

@[simp] theorem enter_phase (rush : Rush ι C σ) (client : ι) (phase : Phase C) (other : ι) :
    (rush.enter client phase).phase other = if other = client then phase else rush.phase other :=
  Function.update_apply _ _ _ _

end Rush

namespace Switchboard

variable [Context C] [Inhabited C]

section Moves

variable [DecidableEq ι]

/-- A request goes on by one part of its work. -/
def move (board : Switchboard C σ MemoryStore) (sessionId : String) (events : ι → Event) (rush : Rush ι C σ)
    (step : ι × Stamp) : Rush ι C σ :=
  match rush.phase step.1 with
  | .arrived =>
    match board.loadOr step.2 sessionId default rush.store with
    | (.ok session, store) => { rush with store }.enter step.1 (.loaded session)
    | (.error err, store) => { rush with store }.enter step.1 (.failed err)
  | .loaded session =>
    match board.advance step.2.now session (events step.1) rush.env with
    | (.ok turn, env) => { rush with env }.enter step.1 (.turned turn)
    | (.error err, env) => { rush with env }.enter step.1 (.failed err)
  | .turned turn =>
    match board.commit step.2.now turn rush.store with
    | (.ok (), store) => { rush with store, last := some (turn, step.2.now) }.enter step.1 (.committed turn)
    | (.error err, store) => { rush with store }.enter step.1 (.failed err)
  | .committed _ | .failed _ => rush

/-- The requests go on in the order of the schedule, which names who goes on next and when. -/
def run (board : Switchboard C σ MemoryStore) (sessionId : String) (events : ι → Event)
    (schedule : List (ι × Stamp)) (rush : Rush ι C σ) : Rush ι C σ :=
  schedule.foldl (board.move sessionId events) rush

/-- What a move can do. -/
inductive Moves (board : Switchboard C σ MemoryStore) (sessionId : String) (events : ι → Event) (rush : Rush ι C σ)
    (client : ι) (stamp : Stamp) : Rush ι C σ → Prop
  | load {session : Session C} {store : MemoryStore} : rush.phase client = .arrived →
      board.loadOr stamp sessionId default rush.store = (.ok session, store) →
      Moves board sessionId events rush client stamp ({ rush with store }.enter client (.loaded session))
  | loadFailed {err : SessionError} {store : MemoryStore} : rush.phase client = .arrived →
      board.loadOr stamp sessionId default rush.store = (.error err, store) →
      Moves board sessionId events rush client stamp ({ rush with store }.enter client (.failed err))
  | advance {session : Session C} {turn : Turn C} {env : σ} : rush.phase client = .loaded session →
      board.advance stamp.now session (events client) rush.env = (.ok turn, env) →
      Moves board sessionId events rush client stamp ({ rush with env }.enter client (.turned turn))
  | advanceFailed {session : Session C} {err : SessionError} {env : σ} : rush.phase client = .loaded session →
      board.advance stamp.now session (events client) rush.env = (.error err, env) →
      Moves board sessionId events rush client stamp ({ rush with env }.enter client (.failed err))
  | commit {turn : Turn C} {store : MemoryStore} : rush.phase client = .turned turn →
      board.commit stamp.now turn rush.store = (.ok (), store) →
      Moves board sessionId events rush client stamp
        ({ rush with store, last := some (turn, stamp.now) }.enter client (.committed turn))
  | commitFailed {turn : Turn C} {err : SessionError} {store : MemoryStore} : rush.phase client = .turned turn →
      board.commit stamp.now turn rush.store = (.error err, store) →
      Moves board sessionId events rush client stamp ({ rush with store }.enter client (.failed err))
  | committed {turn : Turn C} : rush.phase client = .committed turn →
      Moves board sessionId events rush client stamp rush
  | failed {err : SessionError} : rush.phase client = .failed err →
      Moves board sessionId events rush client stamp rush

variable {board : Switchboard C σ MemoryStore} {sessionId : String} {events : ι → Event} {rush start : Rush ι C σ}
  {client : ι} {stamp : Stamp} {schedule : List (ι × Stamp)}

theorem moves_move (board : Switchboard C σ MemoryStore) (sessionId : String) (events : ι → Event)
    (rush : Rush ι C σ) (client : ι) (stamp : Stamp) :
    board.Moves sessionId events rush client stamp (board.move sessionId events rush (client, stamp)) := by
  unfold move
  dsimp only
  cases phase : rush.phase client with
  | arrived =>
    dsimp only
    cases load : board.loadOr stamp sessionId default rush.store with
    | mk result store =>
      cases result with
      | ok session => exact .load phase load
      | error err => exact .loadFailed phase load
  | loaded session =>
    dsimp only
    cases advanced : board.advance stamp.now session (events client) rush.env with
    | mk result env =>
      cases result with
      | ok turn => exact .advance phase advanced
      | error err => exact .advanceFailed phase advanced
  | turned turn =>
    dsimp only
    cases committed : board.commit stamp.now turn rush.store with
    | mk result store =>
      cases result with
      | ok done => exact .commit phase committed
      | error err => exact .commitFailed phase committed
  | committed turn => exact .committed phase
  | failed err => exact .failed phase

theorem run_append_singleton (board : Switchboard C σ MemoryStore) (sessionId : String) (events : ι → Event)
    (schedule : List (ι × Stamp)) (step : ι × Stamp) (rush : Rush ι C σ) :
    board.run sessionId events (schedule ++ [step]) rush =
      board.move sessionId events (board.run sessionId events schedule rush) step := by
  rw [run, run, List.foldl_append, List.foldl_cons, List.foldl_nil]

/-- A move of one request leaves the phases of all others. -/
theorem phase_move_of_ne {other : ι} (apart : other ≠ client) :
    (board.move sessionId events rush (client, stamp)).phase other = rush.phase other := by
  have moves := moves_move board sessionId events rush client stamp
  generalize board.move sessionId events rush (client, stamp) = after at moves ⊢
  cases moves with
  | committed _ | failed _ => rfl
  | _ => rw [Rush.enter_phase, if_neg apart]

theorem phase_move_ne_arrived : (board.move sessionId events rush (client, stamp)).phase client ≠ .arrived := by
  have moves := moves_move board sessionId events rush client stamp
  generalize board.move sessionId events rush (client, stamp) = after at moves ⊢
  cases moves with
  | committed phase | failed phase =>
    rw [phase]
    exact nofun
  | _ =>
    rw [Rush.enter_phase, if_pos rfl]
    exact nofun

/-- A request that has only just arrived did not move yet. -/
theorem ne_of_arrived (arrived : (board.run sessionId events schedule start).phase client = .arrived) :
    ∀ step ∈ schedule, step.1 ≠ client := by
  induction schedule using List.reverseRecOn with
  | nil => exact fun _ mem => nomatch mem
  | append_singleton schedule step ih =>
    rw [run_append_singleton] at arrived
    have apart : step.1 ≠ client := by
      rintro rfl
      exact phase_move_ne_arrived arrived
    rw [phase_move_of_ne apart.symm] at arrived
    intro other mem
    rcases List.mem_append.1 mem with before | here
    · exact ih arrived other before
    · cases List.mem_singleton.1 here
      exact apart

end Moves

section InTurn

variable [DecidableEq ι]

/-- The work on one keystroke, with a reading of the clock for each of its parts. -/
def handleAt (board : Switchboard C σ S) (loading : Stamp) (advancing committing : Instant) (sessionId : String)
    (event : Event) (store : S) (env : σ) : Except SessionError (Turn C) × S × σ :=
  match board.loadOr loading sessionId default store with
  | (.error err, store) => (.error err, store, env)
  | (.ok session, store) =>
    match board.advance advancing session event env with
    | (.error err, env) => (.error err, store, env)
    | (.ok turn, env) =>
      let (result, store) := board.commit committing turn store
      (result.map fun _ => turn, store, env)

/-- A request is handled from beginning to end. -/
def attend (board : Switchboard C σ MemoryStore) (sessionId : String) (events : ι → Event) (rush : Rush ι C σ)
    (request : Request ι) : Rush ι C σ :=
  match board.handleAt request.loading request.advancing.now request.committing.now sessionId (events request.client)
    rush.store rush.env with
  | (.ok turn, store, env) =>
    { rush with store, env, last := some (turn, request.committing.now) }.enter request.client (.committed turn)
  | (.error err, store, env) => { rush with store, env }.enter request.client (.failed err)

variable {board : Switchboard C σ MemoryStore} {sessionId : String} {events : ι → Event} {rush : Rush ι C σ}

theorem move_of_failed {client : ι} {err : SessionError} (failed : rush.phase client = .failed err) (stamp : Stamp) :
    board.move sessionId events rush (client, stamp) = rush := by
  simp only [move, failed]

theorem run_steps {request : Request ι} (arrived : rush.phase request.client = .arrived) :
    board.run sessionId events request.steps rush = board.attend sessionId events rush request := by
  obtain ⟨client, loading, advancing, committing⟩ := request
  simp only [run, Request.steps, List.foldl_cons, List.foldl_nil, attend, handleAt] at arrived ⊢
  have fails {rush : Rush ι C σ} {err : SessionError} (stamp : Stamp) :
      board.move sessionId events (rush.enter client (.failed err)) (client, stamp) = rush.enter client (.failed err) :=
    move_of_failed (by rw [Rush.enter_phase, if_pos rfl]) stamp
  cases load : board.loadOr loading sessionId default rush.store with
  | mk result store =>
    cases result with
    | error err =>
      have first : board.move sessionId events rush (client, loading) =
          { rush with store }.enter client (.failed err) := by
        simp only [move, arrived, load]
      rw [first, fails, fails]
    | ok session =>
      have first : board.move sessionId events rush (client, loading) =
          { rush with store }.enter client (.loaded session) := by
        simp only [move, arrived, load]
      rw [first]
      cases advanced : board.advance advancing.now session (events client) rush.env with
      | mk result env =>
        cases result with
        | error err =>
          have second : board.move sessionId events ({ rush with store }.enter client (.loaded session))
              (client, advancing) = { rush with store, env }.enter client (.failed err) := by
            simp [move, advanced, Rush.enter]
          rw [second, fails]
          simp only [advanced]
        | ok turn =>
          have second : board.move sessionId events ({ rush with store }.enter client (.loaded session))
              (client, advancing) = { rush with store, env }.enter client (.turned turn) := by
            simp [move, advanced, Rush.enter]
          rw [second]
          cases committed : board.commit committing.now turn store with
          | mk result left => cases result <;> simp [move, advanced, committed, Rush.enter, Except.map]

theorem phase_attend_of_ne {request : Request ι} {client : ι} (apart : client ≠ request.client) :
    (board.attend sessionId events rush request).phase client = rush.phase client := by
  unfold attend
  split <;> rw [Rush.enter_phase, if_neg apart]

/-- Requests that do not overlap are handled one after another. -/
theorem run_flatMap_steps {requests : List (Request ι)} (once : (requests.map Request.client).Nodup)
    (arrived : ∀ request ∈ requests, rush.phase request.client = .arrived) :
    board.run sessionId events (requests.flatMap Request.steps) rush =
      requests.foldl (board.attend sessionId events) rush := by
  induction requests generalizing rush with
  | nil => rfl
  | cons request requests ih =>
    obtain ⟨first, once⟩ := List.nodup_cons.1 once
    have handled : board.run sessionId events request.steps rush = board.attend sessionId events rush request :=
      run_steps (arrived request List.mem_cons_self)
    rw [run] at handled
    rw [List.flatMap_cons, run, List.foldl_append, List.foldl_cons, handled]
    refine ih once fun other mem => ?_
    have apart : other.client ≠ request.client := by
      rintro same
      exact first (same ▸ List.mem_map_of_mem mem)
    rw [phase_attend_of_ne apart]
    exact arrived other (List.mem_cons_of_mem _ mem)

end InTurn

end Switchboard

end DialMenu
