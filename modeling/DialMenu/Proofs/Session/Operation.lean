import DialMenu.Proofs.Compilation
import DialMenu.Proofs.Session.Conversation
import DialMenu.Proofs.Session.Records

/-!
The operations of a board as values, and what is left when one fails: every reading of the store answers as before.
A request that fails because its record cannot be read, or because there is no machine for it, has called no service.
-/

namespace DialMenu

variable {C σ S : Type}

/-- What clients ask of a board. -/
inductive Operation (C : Type) where
  /-- The context is that of a new conversation. A request loads with the default one. -/
  | load (stamp : Stamp) (sessionId : String) (context : C)
  | start (stamp : Stamp) (sessionId machine : String) (context : C)
  | advance (now : Instant) (session : Session C) (event : Event)
  | commit (now : Instant) (turn : Turn C)
  | handle (stamp : Stamp) (sessionId : String) (event : Event)

inductive Operation.Answer (C : Type) where
  | session (session : Session C)
  | turn (turn : Turn C)
  | done

/-- The reading of the clock for the operation. -/
def Operation.now : Operation C → Instant
  | load stamp _ _ | start stamp _ _ _ | handle stamp _ _ => stamp.now
  | advance now _ _ | commit now _ => now

/-- Answers an operation, and leaves a store and an environment. -/
def Switchboard.perform [Context C] [Inhabited C] (board : Switchboard C σ S) (store : S) (env : σ) :
    Operation C → Except SessionError (Operation.Answer C) × S × σ
  | .load stamp sessionId context =>
    let (result, store) := board.loadOr stamp sessionId context store
    (result.map .session, store, env)
  | .start stamp sessionId machine context =>
    let (result, store) := board.start stamp sessionId machine context store
    (result.map .session, store, env)
  | .advance now session event =>
    let (result, env) := board.advance now session event env
    (result.map .turn, store, env)
  | .commit now turn =>
    let (result, store) := board.commit now turn store
    (result.map fun _ => .done, store, env)
  | .handle stamp sessionId event =>
    let (result, store, env) := board.handle stamp sessionId event store env
    (result.map .turn, store, env)

section Watched

/-- The service, with a list of the calls that are made. -/
def Service.watched (name : String) (service : Service C σ) : Service C (σ × List String) :=
  fun context event env =>
    let answer := service context event env.1
    { result := answer.result, env := (answer.env, env.2 ++ [name]), elapsed := answer.elapsed }

def Invocation.watched (call : Invocation C σ) : Invocation C (σ × List String) where
  name := call.name
  service := call.service.watched call.name
  onDone := call.onDone
  onError := call.onError

def Machine.State.watched (state : Machine.State C σ) : Machine.State C (σ × List String) where
  id := state.id
  kind := state.kind
  tags := state.tags
  raise := state.raise
  call := state.call.map Invocation.watched
  on := state.on

def Interpreter.watched (i : Interpreter C σ) : Interpreter C (σ × List String) where
  machine :=
    { id := i.machine.id, initial := i.machine.initial
      states := i.machine.states.mapValues fun _ state => state.watched }
  classify := i.classify

/-- The board with a list of all calls of services in its environment. -/
def Switchboard.watched (board : Switchboard C σ S) : Switchboard C (σ × List String) S where
  interpreters := board.interpreters.mapValues fun _ i => i.watched
  store := board.store
  config := board.config

theorem Switchboard.unregistered_watched {board : Switchboard C σ S} {machine : String}
    (unregistered : board.interpreters.get? machine = none) : board.watched.interpreters.get? machine = none := by
  rw [watched, Table.get?_mapValues, unregistered]
  rfl

end Watched

namespace Switchboard

variable [Context C] [Inhabited C]

/-- A request whose conversation cannot be loaded goes no further. -/
theorem handle_of_loadOr {board : Switchboard C σ S} {stamp : Stamp} {sessionId : String} {store loaded : S}
    {err : SessionError} (failed : board.loadOr stamp sessionId default store = (.error err, loaded)) (event : Event)
    (env : σ) : board.handle stamp sessionId event store env = (.error err, loaded, env) := by
  rw [handle, failed]

section Memory

variable {board : Switchboard C σ MemoryStore} {form : RecordForm C}

theorem handle_of_unreadable (memory : board.store = MemoryStore.operationsIn form) {stamp : Stamp}
    {sessionId : String} {store : MemoryStore} {record : MemoryStore.Record} {err : SessionError}
    (live : store.live? stamp.now (board.config.keyFor sessionId) = some record)
    (unreadable : form.read store.codec record.bytes = .error err) (event : Event) (env : σ) :
    board.handle stamp sessionId event store env = (.error err, store, env) := by
  refine handle_of_loadOr ?_ event env
  rw [loadOr_eq memory, live]
  exact congrArg (·, store) unreadable

theorem handle_of_unregistered (memory : board.store = MemoryStore.operationsIn form) {stamp : Stamp}
    {sessionId : String} {store : MemoryStore} {record : MemoryStore.Record} {session : Session C}
    (live : store.live? stamp.now (board.config.keyFor sessionId) = some record)
    (read : form.read store.codec record.bytes = .ok session)
    (unregistered : board.interpreters.get? session.machine = none) (event : Event) (env : σ) :
    board.handle stamp sessionId event store env = (.error (.unknownMachine session.machine), store, env) := by
  have loaded : board.loadOr stamp sessionId default store = (.ok session, store) := by
    rw [loadOr_eq memory, live]
    exact congrArg (·, store) read
  rw [handle, loaded]
  dsimp only
  rw [advance_of_unregistered unregistered]

theorem handle_of_unregistered_entry (memory : board.store = MemoryStore.operationsIn form) {stamp : Stamp}
    {sessionId : String} {store : MemoryStore} (gone : store.live? stamp.now (board.config.keyFor sessionId) = none)
    (unregistered : board.interpreters.get? board.config.entry = none) (event : Event) (env : σ) :
    board.handle stamp sessionId event store env =
      (.error (.unknownMachine board.config.entry), store.without (board.config.keyFor sessionId), env) := by
  refine handle_of_loadOr ?_ event env
  rw [loadOr_eq memory, gone]
  exact congrArg (·, _) (fresh_of_unregistered unregistered stamp sessionId default)

/-- A failed request leaves no more than its loading did. -/
theorem handle_of_error (memory : board.store = MemoryStore.operationsIn form) {stamp : Stamp} {sessionId : String}
    {event : Event} {store : MemoryStore} {env : σ} {err : SessionError}
    (failed : (board.handle stamp sessionId event store env).1 = .error err) :
    (board.handle stamp sessionId event store env).2.1 = (board.loadOr stamp sessionId default store).2 := by
  unfold handle at failed ⊢
  generalize board.loadOr stamp sessionId default store = load at failed ⊢
  obtain ⟨_ | session, loaded⟩ := load
  · rfl
  dsimp only at failed ⊢
  generalize board.advance stamp.now session event env = advance at failed ⊢
  obtain ⟨_ | turn, left⟩ := advance
  · rfl
  dsimp only at failed ⊢
  cases committed : (board.commit stamp.now turn loaded).1 with
  | error err => exact commit_of_error memory committed
  | ok done =>
    rw [committed] at failed
    cases failed

/-- From the reading of the clock on that a failed operation took, the store answers as before. -/
theorem sameFrom_perform (memory : board.store = MemoryStore.operationsIn form) {store : MemoryStore} {env : σ}
    {operation : Operation C} {err : SessionError} (failed : (board.perform store env operation).1 = .error err) :
    (board.perform store env operation).2.1.SameFrom operation.now store := by
  cases operation with
  | load stamp sessionId context => exact sameFrom_loadOr memory stamp sessionId context store
  | start stamp sessionId machine context =>
    have same := start_of_error memory (Except.map_eq_error_iff.1 failed)
    rw [perform]
    dsimp only
    rw [same]
    exact .refl _ _
  | advance now session event => exact .refl _ _
  | commit now turn =>
    have same := commit_of_error memory (Except.map_eq_error_iff.1 failed)
    rw [perform]
    dsimp only
    rw [same]
    exact .refl _ _
  | handle stamp sessionId event =>
    have same := handle_of_error memory (Except.map_eq_error_iff.1 failed)
    rw [perform]
    dsimp only
    rw [same]
    exact sameFrom_loadOr memory stamp sessionId default store

/-- After an operation that fails every reading of the store answers as it would have before, and to advance a
conversation never touches the store. A request fails before any service is called if its record cannot be read, if
the machine of the record is not registered, or if there is no record and no machine to begin in. -/
theorem failure_unseen (memory : board.store = MemoryStore.operationsIn form) (store : MemoryStore) (env : σ) :
    (∀ operation err, (board.perform store env operation).1 = .error err → ∀ later, operation.now ≤ later → ∀ key,
      (board.store.get later key (board.perform store env operation).2.1).1 = (board.store.get later key store).1) ∧
    (∀ now session event, (board.perform store env (.advance now session event)).2.1 = store) ∧
    ∀ stamp sessionId event calls,
      (∀ record err, store.live? stamp.now (board.config.keyFor sessionId) = some record →
        form.read store.codec record.bytes = .error err →
        board.handle stamp sessionId event store env = (.error err, store, env) ∧
          board.watched.handle stamp sessionId event store (env, calls) = (.error err, store, env, calls)) ∧
      (∀ record session, store.live? stamp.now (board.config.keyFor sessionId) = some record →
        form.read store.codec record.bytes = .ok session → board.interpreters.get? session.machine = none →
        board.handle stamp sessionId event store env = (.error (.unknownMachine session.machine), store, env) ∧
          board.watched.handle stamp sessionId event store (env, calls) =
            (.error (.unknownMachine session.machine), store, env, calls)) ∧
      (store.live? stamp.now (board.config.keyFor sessionId) = none →
        board.interpreters.get? board.config.entry = none →
        ∃ left, board.handle stamp sessionId event store env =
            (.error (.unknownMachine board.config.entry), left, env) ∧
          board.watched.handle stamp sessionId event store (env, calls) =
            (.error (.unknownMachine board.config.entry), left, env, calls)) := by
  have watched : board.watched.store = MemoryStore.operationsIn form := memory
  refine ⟨?_, fun _ _ _ => rfl, fun stamp sessionId event calls => ⟨?_, ?_, ?_⟩⟩
  · intro operation err failed later order key
    rw [memory]
    exact (sameFrom_perform memory failed).get_fst order form key
  · intro record err live unreadable
    exact ⟨handle_of_unreadable memory live unreadable event env,
      handle_of_unreadable watched live unreadable event (env, calls)⟩
  · intro record session live read unregistered
    exact ⟨handle_of_unregistered memory live read unregistered event env,
      handle_of_unregistered watched live read (unregistered_watched unregistered) event (env, calls)⟩
  · intro gone unregistered
    exact ⟨_, handle_of_unregistered_entry memory gone unregistered event env,
      handle_of_unregistered_entry watched gone (unregistered_watched unregistered) event (env, calls)⟩

end Memory

end Switchboard

/-- A board that begins in a machine it does not have, and grants more time than can be counted. -/
def retiredBoard : Switchboard Rehearsal.Bare Nat MemoryStore :=
  { visitBoard with config := { entry := "retired", lifetime := 18446744073709551615 } }

/-- A conversation in a machine that is not registered. -/
def lostSession : Session Rehearsal.Bare :=
  .fresh default "ussd:session:lost" "lost" "menu" {} retiredBoard.config.ttl

/-- A record of no registered machine, an expired one, and one that cannot be read. -/
def troubledStore : MemoryStore where
  codec := .binary
  records := ⟨[("ussd:session:lost", ⟨lostSession.written .binary, .latest⟩), ("ussd:session:old", ⟨[], .epoch⟩),
    ("ussd:session:tel", ⟨[], .latest⟩)], by decide⟩

theorem failure_unseen_troubled :
    let start : Operation Rehearsal.Bare := .start default "new" "demo" {}
    let load : Operation Rehearsal.Bare := .load default "old" {}
    let event : Event := { kind := .transit, input := "7" }
    ((retiredBoard.perform troubledStore 0 start).1 =
        .error (.store "Source duration value is out of range for the target type") ∧
      (retiredBoard.perform troubledStore 0 load).1 = .error (.unknownMachine "retired") ∧
      ∀ operation ∈ [start, load], ∀ later, .epoch ≤ later → ∀ key,
        (retiredBoard.store.get later key (retiredBoard.perform troubledStore 0 operation).2.1).1 =
          (retiredBoard.store.get later key troubledStore).1) ∧
    retiredBoard.watched.handle default "tel" event troubledStore (0, []) =
      (.error .undecodable, troubledStore, 0, []) ∧
    retiredBoard.watched.handle default "lost" event troubledStore (0, []) =
      (.error (.unknownMachine "lost"), troubledStore, 0, []) ∧
    ∃ left, retiredBoard.watched.handle default "old" event troubledStore (0, []) =
      (.error (.unknownMachine "retired"), left, 0, []) := by
  intro start load event
  have memory : retiredBoard.store = MemoryStore.operationsIn (.encoded Rehearsal.Bare) := MemoryStore.operations_eq
  obtain ⟨unseen, -, requests⟩ := Switchboard.failure_unseen memory troubledStore 0
  have started : (retiredBoard.perform troubledStore 0 start).1 =
      .error (.store "Source duration value is out of range for the target type") := rfl
  have loaded : (retiredBoard.perform troubledStore 0 load).1 = .error (.unknownMachine "retired") := rfl
  have lost : Session.decode .binary (lostSession.written .binary) = .ok lostSession :=
    Session.decode_written_of_fits ⟨Rehearsal.Bare.faithful _, by decide +kernel⟩ (Session.current_fresh ..)
  refine ⟨⟨started, loaded, ?_⟩, ?_, ?_, ?_⟩
  · exact List.forall_mem_cons.2 ⟨unseen start _ started, List.forall_mem_singleton.2 (unseen load _ loaded)⟩
  · exact ((requests default "tel" event []).1 ⟨[], .latest⟩ .undecodable rfl rfl).2
  · exact ((requests default "lost" event []).2.1 ⟨lostSession.written .binary, .latest⟩ lostSession rfl lost rfl).2
  · obtain ⟨left, -, watched⟩ := (requests default "old" event []).2.2 rfl rfl
    exact ⟨left, watched⟩

end DialMenu
