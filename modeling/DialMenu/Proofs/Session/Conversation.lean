import DialMenu.Bindings
import DialMenu.Proofs.Interpreter.Clock
import DialMenu.Proofs.Session.Codec
import DialMenu.Session.Switchboard

/-!
A conversation through the store is the pure run of the interpreter. The store with its codec can be replaced by
the record itself, and the record by the place in the machine: neither shows in the answers, as long as no record
expires and every record fits its codec.
-/

namespace DialMenu

variable {C σ S : Type}

/-- The hops of a trace without their times. -/
def Trace.untimed (trace : Trace) : List (String × String × Trigger) :=
  trace.hops.map fun hop => (hop.origin, hop.target, hop.trigger)

/-- What a turn tells, times aside. -/
structure Gist (C : Type) where
  state : String
  context : C
  disposition : Disposition
  hops : List (String × String × Trigger)
deriving DecidableEq

def Turn.gist (turn : Turn C) : Gist C :=
  ⟨turn.session.state, turn.session.context, turn.disposition, turn.trace.untimed⟩

def Rest.gist (rest : Rest C σ) : Gist C := ⟨rest.state, rest.context, rest.disposition, rest.trace.untimed⟩

theorem Rest.gist_retimed (rest : Rest C σ) (now : Instant) : (rest.retimed now).gist = rest.gist := by
  simp [Rest.gist, Rest.retimed, Trace.untimed, Trace.retimed]

section Runs

variable [Context C] [Inhabited C]

/-- The events one after another, without any store. Behind a terminal turn the conversation begins again. -/
def Interpreter.converse (i : Interpreter C σ) (now : Instant) : List Event → String → C → σ → List (Rest C σ)
  | [], _, _, _ => []
  | event :: events, state, context, env =>
    let rest := i.step now state context event env
    rest ::
      if rest.disposition.isTerminal then i.converse now events i.machine.initial default rest.env
      else i.converse now events rest.state rest.context rest.env

namespace Switchboard

/-- Handles the requests of one session id, one after another: each answer, and the environment that it leaves. -/
def handleAll (board : Switchboard C σ S) (sessionId : String) :
    List (Stamp × Event) → S → σ → List (Except SessionError (Turn C) × σ)
  | [], _, _ => []
  | (stamp, event) :: requests, store, env =>
    let (answer, store, env) := board.handle stamp sessionId event store env
    (answer, env) :: board.handleAll sessionId requests store env

/-- The record, or a new one at the beginning of the entry machine. -/
def resumed (board : Switchboard C σ S) (i : Interpreter C σ) (sessionId : String) (stamp : Stamp)
    (record : Option (Session C)) : Session C :=
  record.getD
    (.fresh stamp (board.config.keyFor sessionId) board.config.entry i.machine.initial default board.config.ttl)

/-- One turn on the record itself. -/
def turn (board : Switchboard C σ S) (i : Interpreter C σ) (sessionId : String) (stamp : Stamp) (event : Event)
    (record : Option (Session C)) (env : σ) : Turn C × σ :=
  let session := board.resumed i sessionId stamp record
  let rest := i.step stamp.now session.state session.context event env
  ({ session := session.advanced stamp.now rest.state rest.context board.config.ttl
     disposition := rest.disposition, trace := rest.trace }, rest.env)

end Switchboard

/-- The record that is kept after a turn. -/
def Turn.kept (turn : Turn C) : Option (Session C) := if turn.isTerminal then none else some turn.session

/-- The requests one after another on the record itself. -/
def Switchboard.turns (board : Switchboard C σ S) (i : Interpreter C σ) (sessionId : String) :
    List (Stamp × Event) → Option (Session C) → σ → List (Turn C × σ)
  | [], _, _ => []
  | (stamp, event) :: requests, record, env =>
    let answer := board.turn i sessionId stamp event record env
    answer :: board.turns i sessionId requests answer.1.kept answer.2

end Runs

/-- Every turn that waits is followed in time: the next request comes before the record expires. -/
def Unexpired (ttl : Duration) : List Instant → List Disposition → Prop
  | now :: next :: later, disposition :: dispositions =>
    (disposition.isTerminal = false → next < now.addSaturating ttl) ∧ Unexpired ttl (next :: later) dispositions
  | _, _ => True

namespace Unexpired

variable {ttl : Duration} {now : Instant} {times : List Instant} {disposition : Disposition}
  {dispositions : List Disposition}

theorem tail (unexpired : Unexpired ttl (now :: times) (disposition :: dispositions)) :
    Unexpired ttl times dispositions := by
  cases times with
  | nil => cases dispositions <;> exact True.intro
  | cons next later => exact unexpired.2

theorem head (unexpired : Unexpired ttl (now :: times) (disposition :: dispositions))
    (waits : disposition.isTerminal = false) : ∀ next ∈ times.head?, next < now.addSaturating ttl := by
  cases times with
  | nil =>
    intro next here
    cases here
  | cons next later =>
    intro next' here
    cases Option.some.inj here
    exact unexpired.1 waits

end Unexpired

/-- The codec can hold any record with these names and this context. -/
def Codec.Fits [Encoded C] (codec : Codec) (key machine state : String) (context : C) : Prop :=
  Encoded.Faithful context ∧
    match codec with
    | .json => (Encoded.toJson context).depth < Json.nesting
    | .binary => (Encoded.encode context).length + key.toUTF8.size + machine.toUTF8.size + state.toUTF8.size + 512 <
        18446744073709551616

/-- The codec can hold every record that a conversation in this machine keeps. -/
def Codec.FitsRun [Encoded C] (codec : Codec) (key machine : String) (run : List (Rest C σ)) : Prop :=
  ∀ rest ∈ run, rest.disposition.isTerminal = false → codec.Fits key machine rest.state rest.context

section Fits

variable [Encoded C] {session : Session C} {codec : Codec}
  (fits : codec.Fits session.key session.machine session.state session.context)

include fits

/-- A record of the current version that fits its codec is read back, with its timestamps as they are written. -/
theorem Session.decode_written_settled (version : session.version = currentVersion) :
    decode codec (session.written codec) = .ok session.settled := by
  obtain ⟨faithful, room⟩ := fits
  have answer : session.settled.answer = .ok session.settled := if_pos version
  rw [← answer]
  cases codec with
  | json =>
    have shallow : session.toJson.depth ≤ Json.nesting := depth_toJson_le.2 (Nat.le_of_lt_succ room)
    exact (decode_json faithful).trans (if_pos shallow)
  | binary =>
    have small : Wire.Addressable (session.written .binary) := Nat.lt_of_le_of_lt length_toBytes_le room
    have whole := decode_binary faithful small []
    rwa [List.append_nil] at whole

theorem Session.decode_written_of_fits (current : session.Current) :
    decode codec (session.written codec) = .ok session :=
  (decode_written_settled fits current.version).trans (congrArg _ (settled_eq_iff.2 current.regular))

end Fits

namespace Switchboard

/-- The record is a current one, of a conversation in the entry machine under this key. -/
structure Owns (board : Switchboard C σ S) (key : String) (session : Session C) : Prop where
  current : session.Current
  key : session.key = key
  machine : session.machine = board.config.entry

section Store

variable [Encoded C] [Context C] [Inhabited C]

/-- The store keeps the record under the key, in a form that is read back, until it expires; or it has none. -/
inductive Keeps (board : Switchboard C σ MemoryStore) (key : String) (store : MemoryStore) :
    Option (Session C) → Option Instant → Prop
  | nothing : store.records.get? key = none → Keeps board key store none none
  | record {session : Session C} {expiresAt : Instant} :
      store.records.get? key = some ⟨session.written store.codec, expiresAt⟩ →
      Session.decode store.codec (session.written store.codec) = .ok session → board.Owns key session →
      Keeps board key store (some session) (some expiresAt)

variable {board : Switchboard C σ MemoryStore} {i : Interpreter C σ} {sessionId : String} {store : MemoryStore}
  {record : Option (Session C)} {expiry : Option Instant} {stamp : Stamp} {event : Event} {env : σ}

omit [Context C] in
theorem owns_resumed (i : Interpreter C σ) (stamp : Stamp)
    (keeps : board.Keeps (board.config.keyFor sessionId) store record expiry) :
    board.Owns (board.config.keyFor sessionId) (board.resumed i sessionId stamp record) := by
  cases keeps with
  | nothing missing => exact ⟨Session.current_fresh .., rfl, rfl⟩
  | record found decoded owns => exact owns

omit [Context C] in
/-- A live record is loaded as it was kept, and a new one made if there is none. -/
theorem loadOr_of_keeps (operations : board.store = MemoryStore.operations C)
    (entry : board.interpreters.get? board.config.entry = some i)
    (keeps : board.Keeps (board.config.keyFor sessionId) store record expiry)
    (live : ∀ t, expiry = some t → stamp.now < t) :
    board.loadOr stamp sessionId default store = (.ok (board.resumed i sessionId stamp record), store) := by
  rw [loadOr, operations]
  cases keeps with
  | nothing missing =>
    simp only [MemoryStore.operations, MemoryStore.get, missing]
    rw [fresh, interpreter, entry]
    rfl
  | @record session expiresAt found decoded owns =>
    have isLive : MemoryStore.Record.isLive ⟨session.written store.codec, expiresAt⟩ stamp.now = true :=
      decide_eq_true (live expiresAt rfl)
    simp only [MemoryStore.operations, MemoryStore.get, found, isLive, if_true, decoded]
    rfl

omit [Encoded C] [Inhabited C] in
/-- A turn in the entry machine is a step of its interpreter. -/
theorem advance_of_owns {key : String} {session : Session C}
    (entry : board.interpreters.get? board.config.entry = some i) (owns : board.Owns key session) (now : Instant)
    (event : Event) (env : σ) :
    board.advance now session event env =
      let rest := i.step now session.state session.context event env
      (.ok { session := session.advanced now rest.state rest.context board.config.ttl
             disposition := rest.disposition, trace := rest.trace }, rest.env) := by
  rw [advance, owns.machine, interpreter, entry]

omit [Context C] [Inhabited C] in
/-- A terminal turn leaves no record, and any other one leaves its own. -/
theorem commit_keeps {turn : Turn C} (operations : board.store = MemoryStore.operations C)
    (lifetime : board.config.ttl.total ≤ MemoryStore.longestLifetime)
    (owns : board.Owns (board.config.keyFor sessionId) turn.session)
    (fits : turn.isTerminal = false → store.codec.Fits (board.config.keyFor sessionId) board.config.entry
      turn.session.state turn.session.context) (now : Instant) :
    ∃ store', board.commit now turn store = (.ok (), store') ∧ store'.codec = store.codec ∧
      board.Keeps (board.config.keyFor sessionId) store' turn.kept
        (if turn.isTerminal then none else some (now.addSaturating board.config.ttl)) := by
  rw [commit, operations, Turn.kept]
  cases terminal : turn.isTerminal with
  | true =>
    refine ⟨_, rfl, rfl, .nothing ?_⟩
    rw [MemoryStore.get?_without, if_pos owns.key]
  | false =>
    have decoded := Session.decode_written_of_fits (by rw [owns.key, owns.machine]; exact fits terminal) owns.current
    simp only [MemoryStore.operations, MemoryStore.set_eq, if_neg (Nat.not_lt_of_le lifetime)]
    refine ⟨_, rfl, rfl, .record ?_ decoded owns⟩
    exact (MemoryStore.get?_holding _ _ _ _).trans (if_pos owns.key)

/-- One request on the store is one turn on the record that it keeps. -/
theorem handle_of_keeps (operations : board.store = MemoryStore.operations C)
    (entry : board.interpreters.get? board.config.entry = some i)
    (lifetime : board.config.ttl.total ≤ MemoryStore.longestLifetime)
    (keeps : board.Keeps (board.config.keyFor sessionId) store record expiry)
    (live : ∀ t, expiry = some t → stamp.now < t) {answer : Turn C × σ}
    (turn : board.turn i sessionId stamp event record env = answer)
    (fits : answer.1.isTerminal = false → store.codec.Fits (board.config.keyFor sessionId) board.config.entry
      answer.1.session.state answer.1.session.context) :
    ∃ store', board.handle stamp sessionId event store env = (.ok answer.1, store', answer.2) ∧
      store'.codec = store.codec ∧ board.Keeps (board.config.keyFor sessionId) store' answer.1.kept
        (if answer.1.isTerminal then none else some (stamp.now.addSaturating board.config.ttl)) := by
  subst turn
  have resumed := owns_resumed i stamp keeps
  have owns : board.Owns (board.config.keyFor sessionId) (board.turn i sessionId stamp event record env).1.session :=
    ⟨resumed.current.advanced _ _ _ _, resumed.key, resumed.machine⟩
  obtain ⟨store', committed, codec, kept⟩ := commit_keeps operations lifetime owns fits stamp.now
  refine ⟨store', ?_, codec, kept⟩
  rw [handle, loadOr_of_keeps operations entry keeps live]
  dsimp only
  rw [advance_of_owns entry resumed]
  change (match board.commit stamp.now (board.turn i sessionId stamp event record env).1 store with
    | (result, store) => (result.map fun _ => (board.turn i sessionId stamp event record env).1, store,
        (board.turn i sessionId stamp event record env).2)) = _
  rw [committed]
  rfl

/-- The store does not show: requests on it are turns on the record that it keeps. -/
theorem handleAll_eq_turns (operations : board.store = MemoryStore.operations C)
    (entry : board.interpreters.get? board.config.entry = some i)
    (lifetime : board.config.ttl.total ≤ MemoryStore.longestLifetime) {requests : List (Stamp × Event)}
    (keeps : board.Keeps (board.config.keyFor sessionId) store record expiry)
    (live : ∀ t, expiry = some t → ∀ first ∈ requests.head?, first.1.now < t)
    (unexpired : Unexpired board.config.ttl (requests.map fun request => request.1.now)
      ((board.turns i sessionId requests record env).map fun answer => answer.1.disposition))
    (fits : ∀ answer ∈ board.turns i sessionId requests record env, answer.1.isTerminal = false →
      store.codec.Fits (board.config.keyFor sessionId) board.config.entry answer.1.session.state
        answer.1.session.context) :
    board.handleAll sessionId requests store env =
      (board.turns i sessionId requests record env).map fun answer => (.ok answer.1, answer.2) := by
  induction requests generalizing store record expiry env with
  | nil => rfl
  | cons request requests ih =>
    obtain ⟨stamp, event⟩ := request
    rw [turns] at unexpired fits ⊢
    generalize turn : board.turn i sessionId stamp event record env = answer at unexpired fits ⊢
    obtain ⟨store', handled, codec, kept⟩ := handle_of_keeps operations entry lifetime keeps
      (fun t expires => live t expires _ rfl) turn (fits answer List.mem_cons_self)
    have next : ∀ t, (if answer.1.isTerminal then none else some (stamp.now.addSaturating board.config.ttl)) = some t →
        ∀ first ∈ requests.head?, first.1.now < t := by
      intro t expires first here
      cases waits : answer.1.isTerminal with
      | true => simp [waits] at expires
      | false =>
        rw [waits, if_neg Bool.false_ne_true] at expires
        cases expires
        refine unexpired.head waits first.1.now ?_
        rw [List.head?_map, Option.mem_def.1 here]
        rfl
    have rest := ih kept next unexpired.tail (codec ▸ fun other mem => fits other (List.mem_cons_of_mem _ mem))
    rw [handleAll, handled, List.map_cons, ← rest]

omit [Encoded C] in
/-- A turn tells what the step tells from the place that the record names. -/
theorem gist_turn (board : Switchboard C σ S) {state : String} {context : C}
    (place : (record.map fun session => (session.state, session.context)).getD (i.machine.initial, default) =
      (state, context)) (sessionId : String) (stamp : Stamp) (now : Instant) (event : Event) (env : σ) :
    (board.turn i sessionId stamp event record env).1.gist = (i.step now state context event env).gist ∧
      (board.turn i sessionId stamp event record env).2 = (i.step now state context event env).env := by
  have resumed : (board.resumed i sessionId stamp record).state = state ∧
      (board.resumed i sessionId stamp record).context = context := by
    cases record with
    | none => exact Prod.mk.inj place
    | some session => exact Prod.mk.inj place
  rw [turn, resumed.1, resumed.2, ← Interpreter.retimed_step i now stamp.now, Rest.gist_retimed]
  exact ⟨rfl, rfl⟩

omit [Encoded C] in
/-- The record does not show: turns on it are steps from the place that it names. -/
theorem turns_eq_converse (board : Switchboard C σ S) (sessionId : String) (requests : List (Stamp × Event))
    {state : String} {context : C}
    (place : (record.map fun session => (session.state, session.context)).getD (i.machine.initial, default) =
      (state, context)) (env : σ) (now : Instant) :
    (board.turns i sessionId requests record env).map (fun answer => (answer.1.gist, answer.2)) =
      (i.converse now (requests.map Prod.snd) state context env).map fun rest => (rest.gist, rest.env) := by
  induction requests generalizing record state context env with
  | nil => rfl
  | cons request requests ih =>
    obtain ⟨stamp, event⟩ := request
    obtain ⟨gist, after⟩ := gist_turn board place sessionId stamp now event env
    simp only [turns, Interpreter.converse, List.map_cons]
    generalize board.turn i sessionId stamp event record env = answer at gist after ⊢
    generalize i.step now state context event env = rest at gist after ⊢
    have disposition : answer.1.disposition = rest.disposition := congrArg Gist.disposition gist
    rw [gist, after, Turn.kept, Turn.isTerminal, disposition]
    cases rest.disposition.isTerminal with
    | true => exact congrArg _ (@ih none i.machine.initial default rfl rest.env)
    | false =>
      have kept : (answer.1.session.state, answer.1.session.context) = (rest.state, rest.context) :=
        Prod.ext (congrArg Gist.state gist) (congrArg Gist.context gist)
      exact congrArg _ (@ih (some answer.1.session) rest.state rest.context kept rest.env)

omit [Encoded C] in
/-- Without a record the turns begin in the initial state. -/
theorem turns_of_none (board : Switchboard C σ S) (i : Interpreter C σ) (sessionId : String)
    (requests : List (Stamp × Event)) (env : σ) (now : Instant) :
    (board.turns i sessionId requests none env).map (fun answer => (answer.1.gist, answer.2)) =
      (i.converse now (requests.map Prod.snd) i.machine.initial default env).map fun rest => (rest.gist, rest.env) :=
  turns_eq_converse board sessionId requests rfl env now

/-- Requests on a store without a record are turns that begin anew. -/
theorem handleAll_of_unused (operations : board.store = MemoryStore.operations C)
    (entry : board.interpreters.get? board.config.entry = some i)
    (lifetime : board.config.ttl.total ≤ MemoryStore.longestLifetime) {requests : List (Stamp × Event)} (now : Instant)
    (unexpired : Unexpired board.config.ttl (requests.map fun request => request.1.now)
      ((i.converse now (requests.map Prod.snd) i.machine.initial default env).map Rest.disposition))
    (unused : store.records.get? (board.config.keyFor sessionId) = none)
    (fits : store.codec.FitsRun (board.config.keyFor sessionId) board.config.entry
      (i.converse now (requests.map Prod.snd) i.machine.initial default env)) :
    board.handleAll sessionId requests store env =
      (board.turns i sessionId requests none env).map fun answer => (.ok answer.1, answer.2) := by
  have same := turns_of_none board i sessionId requests env now
  have dispositions : (board.turns i sessionId requests none env).map (fun answer => answer.1.disposition) =
      (i.converse now (requests.map Prod.snd) i.machine.initial default env).map Rest.disposition := by
    have projected := congrArg (List.map fun told => told.1.disposition) same
    rwa [List.map_map, List.map_map] at projected
  refine handleAll_eq_turns operations entry lifetime (.nothing unused) (fun t expires => by cases expires)
    (dispositions ▸ unexpired) ?_
  intro answer mem waits
  have told : (answer.1.gist, answer.2) ∈
      (i.converse now (requests.map Prod.snd) i.machine.initial default env).map fun rest => (rest.gist, rest.env) :=
    same ▸ List.mem_map_of_mem mem
  obtain ⟨rest, inside, equal⟩ := List.mem_map.1 told
  have gist : rest.gist = answer.1.gist := congrArg Prod.fst equal
  have state : rest.state = answer.1.session.state := congrArg Gist.state gist
  have context : rest.context = answer.1.session.context := congrArg Gist.context gist
  have disposition : rest.disposition = answer.1.disposition := congrArg Gist.disposition gist
  rw [← state, ← context]
  exact fits rest inside (disposition ▸ waits)

/-- A conversation through a store answers what the steps of the interpreter answer without one, each turn from
where the turn before it waited, and behind a terminal turn from the beginning again. So stores with different
codecs answer alike. -/
theorem handleAll_eq_converse (operations : board.store = MemoryStore.operations C)
    (entry : board.interpreters.get? board.config.entry = some i)
    (lifetime : board.config.ttl.total ≤ MemoryStore.longestLifetime) (sessionId : String)
    (requests : List (Stamp × Event)) (env : σ) (now : Instant) :
    let run := i.converse now (requests.map Prod.snd) i.machine.initial default env
    let key := board.config.keyFor sessionId
    Unexpired board.config.ttl (requests.map fun request => request.1.now) (run.map Rest.disposition) →
    (∀ store : MemoryStore, store.records.get? key = none → store.codec.FitsRun key board.config.entry run →
      (board.handleAll sessionId requests store env).map (fun answer => (answer.1.map Turn.gist, answer.2)) =
        run.map fun rest => (.ok rest.gist, rest.env)) ∧
    ∀ store other : MemoryStore, store.records.get? key = none → other.records.get? key = none →
      store.codec.FitsRun key board.config.entry run → other.codec.FitsRun key board.config.entry run →
      board.handleAll sessionId requests store env = board.handleAll sessionId requests other env := by
  intro run key unexpired
  constructor
  · intro store unused fits
    have same := turns_of_none board i sessionId requests env now
    have projected := congrArg (List.map fun told => ((.ok told.1 : Except SessionError (Gist C)), told.2)) same
    rw [handleAll_of_unused operations entry lifetime now unexpired unused fits]
    rw [List.map_map, List.map_map] at projected
    rw [List.map_map]
    exact projected
  · intro store other unused unusedOther fits fitsOther
    rw [handleAll_of_unused operations entry lifetime now unexpired unused fits,
      handleAll_of_unused operations entry lifetime now unexpired unusedOther fitsOther]

end Store

end Switchboard

/-- A menu that counts the visits to it and notes the last input, until the input is 0. -/
def visitDefinition : Definition where
  id := "demo"
  initial := "menu"
  states := ⟨[
    ("bye", { kind := .final }),
    ("count", { call := some {
      service := "tick"
      onDone := [{ target := "menu", actions := ["note"] }]
      onError := [{ target := "menu" }] } }),
    ("menu", { on := ⟨[(.transit, [{ target := "bye", guard := some "leaves" }, { target := "count" }])],
      by decide⟩ })], by decide⟩

def visitBindings : Bindings Rehearsal.Bare Nat :=
  ((Bindings.empty.withGuard "leaves" fun _ event => event.input = "0").withAction "note"
    fun _ event => { feedback := some event.input }).withService "tick" fun _ _ visits =>
      { result := .ok .success, env := visits + 1 }

def visitInterpreter : Interpreter Rehearsal.Bare Nat where
  machine :=
    match visitBindings.resolve visitDefinition with
    | .ok machine => machine
    | .error _ => { id := "", initial := "", states := .empty }

def visitBoard : Switchboard Rehearsal.Bare Nat MemoryStore where
  interpreters := ⟨[("demo", visitInterpreter)], by decide⟩
  store := MemoryStore.operations Rehearsal.Bare
  config := { entry := "demo" }

/-- A keystroke at a second. -/
def visitRequest (second : Nat) (input : String) (within : second ≤ 8210266876799) : Stamp × Event :=
  let now : Instant := { Instant.epoch with second, second_mem := ⟨by omega, by omega⟩ }
  ({ now, id := .ofNat second, regular := .inl (by decide : Instant.epoch.nano < 1000000000) },
    { kind := .transit, input })

/-- Two keystrokes that end the conversation, and one long after them. -/
def visitRequests : List (Stamp × Event) :=
  [visitRequest 0 "7" (by decide), visitRequest 100 "0" (by decide), visitRequest 86400 "8" (by decide)]

/-- What the three turns tell, and how many visits there were after each. -/
def visitAnswers : List (Gist Rehearsal.Bare × Nat) :=
  let visit : List (String × String × Trigger) := [("menu", "count", .event .transit), ("count", "menu", .done)]
  [(⟨"menu", { feedback := some "7" }, .waiting, visit⟩, 1),
    (⟨"bye", {}, .finished, [("menu", "bye", .event .transit)]⟩, 1),
    (⟨"menu", { feedback := some "8" }, .waiting, visit⟩, 2)]

theorem handleAll_eq_converse_visits :
    (visitBoard.handleAll "tel" visitRequests { codec := .json } 0).map
        (fun answer => (answer.1.map Turn.gist, answer.2)) =
        visitAnswers.map (fun told => (.ok told.1, told.2)) ∧
      visitBoard.handleAll "tel" visitRequests { codec := .json } 0 =
        visitBoard.handleAll "tel" visitRequests { codec := .binary } 0 := by
  generalize pure : visitInterpreter.converse .epoch (visitRequests.map Prod.snd) visitInterpreter.machine.initial
    default 0 = run
  have told : run.map (fun rest => (rest.gist, rest.env)) = visitAnswers := by
    rw [← pure]
    decide +kernel
  have unexpired : Unexpired visitBoard.config.ttl (visitRequests.map fun request => request.1.now)
      (run.map Rest.disposition) := by
    have dispositions := congrArg (List.map fun told => told.1.disposition) told
    rw [List.map_map] at dispositions
    change run.map Rest.disposition = [.waiting, .finished, .waiting] at dispositions
    rw [dispositions]
    exact ⟨fun _ => by decide, fun running => absurd running (by decide), True.intro⟩
  have fits : ∀ codec : Codec, codec.FitsRun (visitBoard.config.keyFor "tel") visitBoard.config.entry run := by
    intro codec rest mem _
    have gists : (rest.gist, rest.env) ∈ visitAnswers := told ▸ List.mem_map_of_mem mem
    simp only [visitAnswers, List.mem_cons, Prod.mk.injEq, List.not_mem_nil, or_false] at gists
    rcases gists with ⟨gist, -⟩ | ⟨gist, -⟩ | ⟨gist, -⟩
    all_goals
      rw [show rest.state = _ from congrArg Gist.state gist, show rest.context = _ from congrArg Gist.context gist]
      refine ⟨Rehearsal.Bare.faithful _, ?_⟩
      cases codec with
      | json => decide
      | binary => decide +kernel
  have operations : visitBoard.store = MemoryStore.operations Rehearsal.Bare := rfl
  have entry : visitBoard.interpreters.get? visitBoard.config.entry = some visitInterpreter := rfl
  have lifetime : visitBoard.config.ttl.total ≤ MemoryStore.longestLifetime := by decide
  have transparent := Switchboard.handleAll_eq_converse operations entry lifetime "tel" visitRequests 0 .epoch
    (pure.symm ▸ unexpired)
  rw [pure] at transparent
  refine ⟨?_, transparent.2 _ _ rfl rfl (fits .json) (fits .binary)⟩
  rw [transparent.1 _ rfl (fits .json), ← told, List.map_map]
  rfl

end DialMenu
