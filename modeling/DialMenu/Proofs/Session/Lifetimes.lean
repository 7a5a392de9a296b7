import DialMenu.Proofs.Session.Expiry
import DialMenu.Proofs.Session.Operation

/-!
How long a lifetime may be. A configuration counts it in 64 bits of seconds. The end of a conversation saturates at the
latest instant, whatever the lifetime; a record is refused if its lifetime in milliseconds does not fit into 63 bits.
Then no conversation can be started, and a turn that would go on fails after its services were called.
-/

namespace DialMenu

variable {C σ : Type}

/-- The answer to a lifetime that is too long. -/
def SessionError.uncountable : SessionError := .store "Source duration value is out of range for the target type"

namespace MemoryStore

/-- The most seconds for which a record can be stored. -/
def longestSeconds : Nat := 9223372036854775

theorem total_ofSeconds_le_iff (seconds : UInt64) :
    (Duration.ofSeconds seconds).total ≤ longestLifetime ↔ seconds.toNat ≤ longestSeconds := by
  -- The bound is 2^63 - 1 milliseconds, of which 807 are no whole second.
  have whole : (Duration.ofSeconds seconds).seconds = seconds := rfl
  have none : ((Duration.ofSeconds seconds).nanos : Nat) = 0 := rfl
  rw [Duration.total, whole, none, longestLifetime, longestSeconds]
  omega

/-- A record is written for a number of seconds that is not too large, and nothing is written for another one. -/
theorem set_ofSeconds [Encoded C] (now : Instant) (session : Session C) (seconds : UInt64) (store : MemoryStore) :
    set now session (.ofSeconds seconds) store =
      if seconds.toNat ≤ longestSeconds then
        (.ok (), store.holding session.key ⟨session.written store.codec, now.addSaturating (.ofSeconds seconds)⟩)
      else (.error .uncountable, store) := by
  have countable := total_ofSeconds_le_iff seconds
  rw [set_eq]
  by_cases small : seconds.toNat ≤ longestSeconds
  · rw [if_pos small, if_neg (Nat.not_lt_of_le (countable.2 small))]
  · rw [if_neg small, if_pos (Nat.lt_of_not_le (mt countable.1 small))]
    rfl

end MemoryStore

/-- A lifetime that is too long for a record ends at the latest instant. -/
theorem Session.expiresAt_of_long {session : Session C} (long : MemoryStore.longestSeconds < session.lifetime.toNat) :
    session.expiresAt = .latest := by
  rw [MemoryStore.longestSeconds] at long
  rw [expiresAt_eq, Instant.addSaturating, Instant.add?_of_uncountable (by omega), Option.getD_none]

namespace Switchboard

variable {board : Switchboard C σ MemoryStore} [Encoded C]

theorem loadOr_of_stored (memory : board.store = MemoryStore.operations C) {stamp : Stamp} {sessionId : String}
    {store : MemoryStore} {session : Session C} {expiresAt : Instant}
    (found : store.records.get? (board.config.keyFor sessionId) = some ⟨session.written store.codec, expiresAt⟩)
    (readable : Session.decode store.codec (session.written store.codec) = .ok session) (early : stamp.now < expiresAt)
    (context : C) : board.loadOr stamp sessionId context store = (.ok session, store) := by
  have live := MemoryStore.live?_eq_some_iff.2 ⟨found, early⟩
  rw [loadOr_eq (memory.trans MemoryStore.operations_eq), live]
  exact congrArg (·, store) readable

/-- The conversation is started, and it is what is loaded until its end. -/
def Starts (board : Switchboard C σ MemoryStore) (stamp : Stamp) (sessionId machine : String) (context : C)
    (store : MemoryStore) (session : Session C) : Prop :=
  ∃ left, board.start stamp sessionId machine context store = (.ok session, left) ∧
    ∀ (later : Stamp) (other : C), later.now < session.expiresAt →
      board.loadOr later sessionId other left = (.ok session, left)

/-- The answer to the keystroke is this turn, and the conversation is stored until its end. -/
def Stores [Context C] [Inhabited C] (board : Switchboard C σ MemoryStore) (stamp : Stamp) (sessionId : String)
    (event : Event) (store : MemoryStore) (env : σ) (turn : Turn C) : Prop :=
  (board.handle stamp sessionId event store env).1 = .ok turn ∧
    (board.handle stamp sessionId event store env).2.1.records.get? turn.session.key =
      some ⟨turn.session.written store.codec, turn.session.expiresAt⟩

theorem set_eq (memory : board.store = MemoryStore.operations C) (now : Instant) (session : Session C)
    (store : MemoryStore) : board.store.set now session board.config.ttl store =
      if board.config.lifetime.toNat ≤ MemoryStore.longestSeconds then
        (.ok (), store.holding session.key ⟨session.written store.codec, now.addSaturating board.config.ttl⟩)
      else (.error .uncountable, store) := by
  rw [memory]
  exact MemoryStore.set_ofSeconds now session board.config.lifetime store

theorem start_eq (memory : board.store = MemoryStore.operations C) {stamp : Stamp} {sessionId machine : String}
    {context : C} {session : Session C} (made : board.fresh stamp sessionId machine context = .ok session)
    (store : MemoryStore) : board.start stamp sessionId machine context store =
      if board.config.lifetime.toNat ≤ MemoryStore.longestSeconds then
        (.ok session, store.holding session.key ⟨session.written store.codec, session.expiresAt⟩)
      else (.error .uncountable, store) := by
  have ends : session.expiresAt = stamp.now.addSaturating board.config.ttl := by
    obtain ⟨_, -, rfl⟩ := fresh_eq_ok_iff.1 made
    exact Session.expiresAt_eq _
  have sets : board.start stamp sessionId machine context store =
      ((board.store.set stamp.now session board.config.ttl store).1.map fun _ => session,
        (board.store.set stamp.now session board.config.ttl store).2) := by
    rw [start, made]
  rw [sets, set_eq memory, ends]
  split <;> rfl

theorem commit_eq (memory : board.store = MemoryStore.operations C) {turn : Turn C} (waits : turn.isTerminal = false)
    (now : Instant) (store : MemoryStore) : board.commit now turn store =
      if board.config.lifetime.toNat ≤ MemoryStore.longestSeconds then
        (.ok (), store.holding turn.session.key ⟨turn.session.written store.codec, now.addSaturating board.config.ttl⟩)
      else (.error .uncountable, store) := by
  rw [commit, waits, if_neg Bool.false_ne_true, set_eq memory]

variable [Context C] [Inhabited C]

/-- A turn that goes on is stored if its lifetime can be counted. Otherwise it is lost, and what the services did is
not. -/
theorem handle_eq (memory : board.store = MemoryStore.operations C) {stamp : Stamp} {sessionId : String}
    {event : Event} {store loaded : MemoryStore} {env env' : σ} {session : Session C} {turn : Turn C}
    (load : board.loadOr stamp sessionId default store = (.ok session, loaded))
    (advanced : board.advance stamp.now session event env = (.ok turn, env')) (waits : turn.isTerminal = false) :
    board.handle stamp sessionId event store env =
      if board.config.lifetime.toNat ≤ MemoryStore.longestSeconds then
        (.ok turn, loaded.holding turn.session.key ⟨turn.session.written loaded.codec, turn.session.expiresAt⟩, env')
      else (.error .uncountable, loaded, env') := by
  have ends : turn.session.expiresAt = stamp.now.addSaturating board.config.ttl := by
    obtain ⟨_, -, place, -⟩ := advance_eq_ok_iff.1 advanced
    rw [place]
    exact Session.expiresAt_eq _
  have answers : board.handle stamp sessionId event store env =
      ((board.commit stamp.now turn loaded).1.map fun _ => turn, (board.commit stamp.now turn loaded).2, env') := by
    rw [handle, load]
    dsimp only
    rw [advanced]
  rw [answers, commit_eq memory waits, ends]
  split <;> rfl

omit [Context C] [Inhabited C] in
/-- A conversation is started if and only if its lifetime can be counted. -/
theorem starts_iff (memory : board.store = MemoryStore.operations C) {stamp : Stamp} {sessionId machine : String}
    {context : C} {store : MemoryStore} {session : Session C}
    (made : board.fresh stamp sessionId machine context = .ok session)
    (readable : Session.decode store.codec (session.written store.codec) = .ok session) :
    board.Starts stamp sessionId machine context store session ↔
      board.config.lifetime.toNat ≤ MemoryStore.longestSeconds := by
  have started := start_eq memory made store
  have key : session.key = board.config.keyFor sessionId := by
    obtain ⟨_, -, rfl⟩ := fresh_eq_ok_iff.1 made
    rfl
  constructor
  · rintro ⟨left, succeeded, -⟩
    by_contra long
    rw [started, if_neg long] at succeeded
    cases succeeded
  · intro short
    have found : (store.holding session.key ⟨session.written store.codec, session.expiresAt⟩).records.get?
        (board.config.keyFor sessionId) = some ⟨session.written store.codec, session.expiresAt⟩ := by
      rw [MemoryStore.get?_holding, if_pos key]
    rw [if_pos short] at started
    exact ⟨_, started, fun later other early => loadOr_of_stored memory found readable early other⟩

/-- A turn that goes on is stored if and only if its lifetime can be counted. -/
theorem stores_iff (memory : board.store = MemoryStore.operations C) {stamp : Stamp} {sessionId : String}
    {event : Event} {store loaded : MemoryStore} {env env' : σ} {session : Session C} {turn : Turn C}
    (load : board.loadOr stamp sessionId default store = (.ok session, loaded))
    (advanced : board.advance stamp.now session event env = (.ok turn, env')) (waits : turn.isTerminal = false) :
    board.Stores stamp sessionId event store env turn ↔
      board.config.lifetime.toNat ≤ MemoryStore.longestSeconds := by
  have handled := handle_eq memory load advanced waits
  have codec : loaded.codec = store.codec := by
    have same := (sameFrom_loadOr (memory.trans MemoryStore.operations_eq) stamp sessionId default store).codec
    rwa [load] at same
  rw [Stores, handled]
  constructor
  · rintro ⟨answered, -⟩
    by_contra long
    rw [if_neg long] at answered
    cases answered
  · intro short
    rw [if_pos short, ← codec, MemoryStore.get?_holding, if_pos rfl]
    exact ⟨rfl, rfl⟩

/-- With a lifetime of a second or more conversations can be started and go on if and only if the lifetime is not too
long to be counted for a record. For a longer one the conversation itself would last to the latest instant. -/
theorem usable_iff (memory : board.store = MemoryStore.operations C) (lasts : 1 ≤ board.config.lifetime) :
    (∀ (stamp : Stamp) (sessionId machine : String) (context : C) (store : MemoryStore) (i : Interpreter C σ),
      board.interpreters.get? machine = some i →
      let session : Session C :=
        .fresh stamp (board.config.keyFor sessionId) machine i.machine.initial context board.config.ttl
      Session.decode store.codec (session.written store.codec) = .ok session →
        (board.Starts stamp sessionId machine context store session ↔
          board.config.lifetime.toNat ≤ MemoryStore.longestSeconds) ∧
        (MemoryStore.longestSeconds < board.config.lifetime.toNat →
          board.start stamp sessionId machine context store = (.error .uncountable, store))) ∧
    (∀ (stamp : Stamp) (sessionId : String) (event : Event) (store loaded : MemoryStore) (env env' : σ)
      (session : Session C) (turn : Turn C), board.loadOr stamp sessionId default store = (.ok session, loaded) →
      board.advance stamp.now session event env = (.ok turn, env') → turn.isTerminal = false →
        (board.Stores stamp sessionId event store env turn ↔
          board.config.lifetime.toNat ≤ MemoryStore.longestSeconds) ∧
        (MemoryStore.longestSeconds < board.config.lifetime.toNat →
          board.handle stamp sessionId event store env = (.error .uncountable, loaded, env'))) ∧
    ∀ session : Session C, session.lifetime = board.config.lifetime →
      (session.updatedAt < .latest → session.updatedAt < session.expiresAt) ∧
      (MemoryStore.longestSeconds < board.config.lifetime.toNat → session.expiresAt = .latest) := by
  refine ⟨?starts, ?stores, ?ends⟩
  case starts =>
    intro stamp sessionId machine context store i registered session readable
    have made : board.fresh stamp sessionId machine context = .ok session := fresh_eq_ok_iff.2 ⟨i, registered, rfl⟩
    refine ⟨starts_iff memory made readable, fun long => ?_⟩
    rw [start_eq memory made, if_neg (Nat.not_le_of_lt long)]
  case stores =>
    intro stamp sessionId event store loaded env env' session turn load advanced waits
    refine ⟨stores_iff memory load advanced waits, fun long => ?_⟩
    rw [handle_eq memory load advanced waits, if_neg (Nat.not_le_of_lt long)]
  case ends =>
    intro session granted
    refine ⟨fun early => Session.lt_expiresAt ?_ early, fun long => Session.expiresAt_of_long (granted ▸ long)⟩
    have second : 1 ≤ board.config.lifetime.toNat := lasts
    rw [granted]
    exact UInt64.lt_iff_toNat_lt.2 second

end Switchboard

/-- A board for any lifetime. -/
def lastingBoard (lifetime : UInt64) : Switchboard Rehearsal.Bare Nat MemoryStore :=
  { visitBoard with config := { entry := "demo", lifetime } }

/-- A second more than can be counted: nothing can be started, and a keystroke fails after the visit was counted. -/
theorem usable_iff_lasting :
    let session (lifetime : UInt64) : Session Rehearsal.Bare :=
      let config := (lastingBoard lifetime).config
      .fresh default (config.keyFor "tel") "demo" visitInterpreter.machine.initial {} config.ttl
    (lastingBoard 9223372036854775).Starts default "tel" "demo" {} { codec := .binary } (session 9223372036854775) ∧
      (lastingBoard 9223372036854776).start default "tel" "demo" {} { codec := .binary } =
        (.error .uncountable, { codec := .binary }) ∧
      (lastingBoard 9223372036854776).handle default "tel" { kind := .transit, input := "7" } { codec := .binary } 0 =
        (.error .uncountable, { codec := .binary }, 1) ∧
      (session 9223372036854776).expiresAt = .latest := by
  intro session
  let event : Event := { kind := .transit, input := "7" }
  let rest := visitInterpreter.step .epoch visitInterpreter.machine.initial {} event 0
  let turn : Turn Rehearsal.Bare :=
    { session := (session 9223372036854776).advanced .epoch rest.state rest.context (.ofSeconds 9223372036854776)
      disposition := rest.disposition, trace := rest.trace }
  have room : Codec.binary.Fits ((lastingBoard 0).config.keyFor "tel") "demo" visitInterpreter.machine.initial
      ({} : Rehearsal.Bare) :=
    ⟨Rehearsal.Bare.faithful _, by decide +kernel⟩
  have readable (lifetime : UInt64) :
      Session.decode .binary ((session lifetime).written .binary) = .ok (session lifetime) :=
    Session.decode_written_of_fits room (Session.current_fresh ..)
  have visited : 1 = rest.env := by decide +kernel
  have waits : turn.isTerminal = false := by decide +kernel
  have advanced : (lastingBoard 9223372036854776).advance .epoch (session 9223372036854776) event 0 = (.ok turn, 1) :=
    Switchboard.advance_eq_ok_iff.2 ⟨visitInterpreter, rfl, rfl, rfl, rfl, visited⟩
  obtain ⟨short, -, -⟩ := (lastingBoard 9223372036854775).usable_iff rfl (by decide)
  obtain ⟨starts, stores, ends⟩ := (lastingBoard 9223372036854776).usable_iff rfl (by decide)
  have long : MemoryStore.longestSeconds < (lastingBoard 9223372036854776).config.lifetime.toNat := by decide
  refine ⟨?_, ?_, ?_, (ends _ rfl).2 long⟩
  · have starts := short default "tel" "demo" {} { codec := .binary } visitInterpreter rfl (readable 9223372036854775)
    exact starts.1.2 (by decide)
  · exact (starts default "tel" "demo" {} { codec := .binary } visitInterpreter rfl (readable 9223372036854776)).2 long
  · exact (stores default "tel" event _ _ 0 1 (session 9223372036854776) turn rfl advanced waits).2 long

end DialMenu
