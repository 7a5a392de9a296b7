import DialMenu.Proofs.Session.Operation
import DialMenu.Proofs.Session.Parking

/-!
Any number of clients on one store. A client works with the conversations and the turns that it was given for a
session id, in any order and as often as it likes. Every record can be read, stands under its own key and at a state
of its machine, and what is done for one session id does not touch the record of another.
-/

namespace DialMenu

variable {C σ : Type}

theorem Config.keyFor_injective (config : Config) : Function.Injective config.keyFor := fun _ _ same =>
  (String.append_right_inj _).1 same

/-- The codec can hold the record, and its context is read back. -/
def Session.FitsIn [Encoded C] (session : Session C) (codec : Codec) : Prop :=
  codec.Fits session.key session.machine session.state session.context

namespace Operation

/-- Whatever of the answer is to be stored fits. -/
def Answer.FitsIn [Encoded C] (codec : Codec) : Answer C → Prop
  | .session kept => kept.FitsIn codec
  | .turn made => made.isTerminal = false → made.session.FitsIn codec
  | .done => True

/-- The operation is for this session id: it names the id, or takes what was answered for it. -/
def For (sessionId : String) (given : List (String × Answer C)) : Operation C → Prop
  | load _ id _ | start _ id _ _ | handle _ id _ => id = sessionId
  | advance _ session _ => (sessionId, .session session) ∈ given
  | commit _ turn => (sessionId, .turn turn) ∈ given

end Operation

/-- The store, and every answer so far with the session id that it was for. -/
structure Traffic (C : Type) where
  store : MemoryStore
  given : List (String × Operation.Answer C) := []

namespace Switchboard

variable [Context C] [Inhabited C]

/-- The traffic after an operation for a session id. -/
def serve (board : Switchboard C σ MemoryStore) (traffic : Traffic C) (sessionId : String) (operation : Operation C)
    (env : σ) : Traffic C :=
  let outcome := board.perform traffic.store env operation
  { store := outcome.2.1
    given :=
      match outcome.1 with
      | .ok answer => (sessionId, answer) :: traffic.given
      | .error _ => traffic.given }

theorem mem_given_serve {board : Switchboard C σ MemoryStore} {traffic : Traffic C} {sessionId id : String}
    {operation : Operation C} {env : σ} {answer : Operation.Answer C}
    (mem : (id, answer) ∈ (board.serve traffic sessionId operation env).given) :
    (id = sessionId ∧ (board.perform traffic.store env operation).1 = .ok answer) ∨ (id, answer) ∈ traffic.given := by
  unfold serve at mem
  cases performed : (board.perform traffic.store env operation).1 with
  | error err =>
    simp only [performed] at mem
    exact .inr mem
  | ok made =>
    simp only [performed, List.mem_cons, Prod.mk.injEq] at mem
    rcases mem with ⟨here, same⟩ | before
    · exact .inl ⟨here, congrArg _ same.symm⟩
    · exact .inr before

/-- The traffic that clients make from an empty store on. The environment is whatever it has become by then. -/
inductive Serves [Encoded C] (board : Switchboard C σ MemoryStore) (codec : Codec) : Traffic C → Prop
  | empty : Serves board codec { store := { codec } }
  | operation {traffic : Traffic C} {sessionId : String} {operation : Operation C} {env : σ} :
      Serves board codec traffic → operation.For sessionId traffic.given →
      (∀ answer, (board.perform traffic.store env operation).1 = .ok answer → answer.FitsIn codec) →
      Serves board codec (board.serve traffic sessionId operation env)

/-- Every registered machine passed the checks. -/
def Resolved {S : Type} (board : Switchboard C σ S) : Prop :=
  ∀ name i, board.interpreters.get? name = some i →
    ∃ (b : Bindings C σ) (definition : Definition), b.resolve definition = .ok i.machine

/-- The conversation belongs under the key: it says so itself, and is at a state of a registered machine. -/
structure Resides {S : Type} (board : Switchboard C σ S) (key : String) (session : Session C) : Prop where
  key : session.key = key
  version : session.version = Session.currentVersion
  machine : ∃ i, board.interpreters.get? session.machine = some i ∧ i.machine.contains session.state = true

/-- What was answered belongs under the key. A turn that ends its conversation only has to name it. -/
def Owes [Encoded C] {S : Type} (board : Switchboard C σ S) (codec : Codec) (key : String) :
    Operation.Answer C → Prop
  | .session session => board.Resides key session
  | .turn turn => turn.session.key = key ∧
      (turn.isTerminal = false → board.Resides key turn.session ∧ turn.session.FitsIn codec)
  | .done => True

/-- Every record can be read, and belongs where it stands. -/
structure Orderly [Encoded C] (board : Switchboard C σ MemoryStore) (codec : Codec) (store : MemoryStore) : Prop where
  form : store.codec = codec
  records : ∀ key record, store.records.get? key = some record →
    ∃ session : Session C, Session.decode codec record.bytes = .ok session ∧ board.Resides key session

section Answers

variable {S : Type} {board : Switchboard C σ S} {key : String}

omit [Context C] [Inhabited C] in
theorem resides_of_fresh (resolved : board.Resolved) {stamp : Stamp} {sessionId machine : String} {context : C}
    {session : Session C} (made : board.fresh stamp sessionId machine context = .ok session) :
    board.Resides (board.config.keyFor sessionId) session := by
  obtain ⟨i, registered, rfl⟩ := fresh_eq_ok_iff.1 made
  obtain ⟨b, definition, resolves⟩ := resolved machine i registered
  exact ⟨rfl, rfl, i, registered, Bindings.contains_initial resolves⟩

omit [Inhabited C] in
/-- A turn that waits is at a state of the machine in which it was made. -/
theorem resides_of_advance {now : Instant} {session : Session C} {event : Event} {env env' : σ} {turn : Turn C}
    (resides : board.Resides key session) (advanced : board.advance now session event env = (.ok turn, env')) :
    turn.session.key = key ∧ (turn.isTerminal = false → board.Resides key turn.session) := by
  obtain ⟨i, registered, place, disposition, -, -⟩ := advance_eq_ok_iff.1 advanced
  have here : turn.session.key = key := by
    rw [place]
    exact resides.key
  refine ⟨here, fun waits => ⟨here, ?_, i, ?_, ?_⟩⟩
  · rw [place]
    exact resides.version
  · rw [place]
    exact registered
  · have waiting : (i.step now session.state session.context event env).disposition = .waiting := by
      simpa [← disposition, Turn.isTerminal, Disposition.isTerminal] using waits
    rw [place]
    exact ((i.state_of_disposition now session.state session.context event env).2 waiting).1

end Answers

section Store

variable [Encoded C] {board : Switchboard C σ MemoryStore} {codec : Codec} {store : MemoryStore}

namespace Orderly

omit [Context C] [Inhabited C]

theorem empty (board : Switchboard C σ MemoryStore) (codec : Codec) : board.Orderly codec { codec } where
  form := rfl
  records key record found := by cases found

theorem without (orderly : board.Orderly codec store) (key : String) : board.Orderly codec (store.without key) where
  form := orderly.form
  records other record found := by
    rw [MemoryStore.get?_without] at found
    split at found
    · cases found
    · exact orderly.records other record found

theorem holding (orderly : board.Orderly codec store) {key : String} {session : Session C}
    (resides : board.Resides key session) (fits : session.FitsIn codec) (expiresAt : Instant) :
    board.Orderly codec (store.holding session.key ⟨session.written store.codec, expiresAt⟩) where
  form := orderly.form
  records other record found := by
    rw [MemoryStore.get?_holding, orderly.form] at found
    split at found
    · rename_i same
      cases found
      have decoded := Session.decode_written_settled fits resides.version
      exact ⟨session.settled, decoded, same, resides.version, resides.machine⟩
    · exact orderly.records other record found

end Orderly

variable (memory : board.store = MemoryStore.operationsIn (.encoded C)) (resolved : board.Resolved)

include memory resolved in
omit [Context C] [Inhabited C] in
theorem orderly_loadOr (orderly : board.Orderly codec store) (stamp : Stamp) (sessionId : String) (context : C) :
    board.Orderly codec (board.loadOr stamp sessionId context store).2 ∧
      ∀ session, (board.loadOr stamp sessionId context store).1 = .ok session →
        board.Resides (board.config.keyFor sessionId) session := by
  rw [loadOr_eq memory]
  cases live : store.live? stamp.now (board.config.keyFor sessionId) with
  | none => exact ⟨orderly.without _, fun session made => resides_of_fresh resolved made⟩
  | some record =>
    refine ⟨orderly, fun session read => ?_⟩
    obtain ⟨kept, decoded, resides⟩ := orderly.records _ record (MemoryStore.live?_eq_some_iff.1 live).1
    have same : session = kept := by
      have here : Session.decode store.codec record.bytes = .ok session := read
      rw [orderly.form, decoded] at here
      exact (Except.ok.inj here).symm
    exact same ▸ resides

include memory resolved in
omit [Context C] [Inhabited C] in
theorem orderly_start (orderly : board.Orderly codec store) {stamp : Stamp} {sessionId machine : String} {context : C}
    (fits : ∀ session, (board.start stamp sessionId machine context store).1 = .ok session → session.FitsIn codec) :
    board.Orderly codec (board.start stamp sessionId machine context store).2 ∧
      ∀ session, (board.start stamp sessionId machine context store).1 = .ok session →
        board.Resides (board.config.keyFor sessionId) session := by
  rcases start_cases memory stamp sessionId machine context store with ⟨_, same⟩ | ⟨session, _, made, written, stored⟩
  · rw [same]
    exact ⟨orderly, fun _ answered => by cases answered⟩
  · have resides := resides_of_fresh resolved made
    rw [stored] at fits ⊢
    cases written
    refine ⟨orderly.holding resides (fits session rfl) _, ?_⟩
    intro answered same
    cases same
    exact resides

include memory in
omit [Context C] [Inhabited C] in
theorem orderly_commit (orderly : board.Orderly codec store) {key : String} {turn : Turn C}
    (owes : board.Owes codec key (.turn turn)) (now : Instant) :
    board.Orderly codec (board.commit now turn store).2 := by
  rcases commit_cases memory now turn store with ⟨-, removed⟩ | ⟨-, _, same⟩ | ⟨waits, _, written, stored⟩
  · rw [removed]
    exact orderly.without _
  · rw [same]
    exact orderly
  · obtain ⟨resides, fits⟩ := owes.2 waits
    rw [stored]
    cases written
    exact orderly.holding resides fits _

/-- What is given to the clients belongs to the session ids that it was given for. -/
def GivenInOrder (board : Switchboard C σ MemoryStore) (codec : Codec) (traffic : Traffic C) : Prop :=
  ∀ sessionId answer, (sessionId, answer) ∈ traffic.given → board.Owes codec (board.config.keyFor sessionId) answer

include memory resolved in
/-- One operation keeps the store in order, and its answer belongs to the session id that it is for. -/
theorem orderly_perform {traffic : Traffic C} (orderly : board.Orderly codec traffic.store)
    (given : board.GivenInOrder codec traffic) {sessionId : String} {operation : Operation C}
    (own : operation.For sessionId traffic.given) (env : σ)
    (fits : ∀ answer, (board.perform traffic.store env operation).1 = .ok answer → answer.FitsIn codec) :
    board.Orderly codec (board.perform traffic.store env operation).2.1 ∧
      ∀ answer, (board.perform traffic.store env operation).1 = .ok answer →
        board.Owes codec (board.config.keyFor sessionId) answer := by
  cases operation with
  | load stamp id context =>
    cases own
    obtain ⟨kept, resides⟩ := orderly_loadOr memory resolved orderly stamp sessionId context
    refine ⟨kept, fun answer answered => ?_⟩
    obtain ⟨session, loaded, rfl⟩ := Except.map_eq_ok_iff.1 answered
    exact resides session loaded
  | start stamp id machine context =>
    cases own
    obtain ⟨kept, resides⟩ := orderly_start memory resolved orderly fun session started =>
      fits (.session session) (Except.map_eq_ok_iff.2 ⟨session, started, rfl⟩)
    refine ⟨kept, fun answer answered => ?_⟩
    obtain ⟨session, started, rfl⟩ := Except.map_eq_ok_iff.1 answered
    exact resides session started
  | advance now session event =>
    refine ⟨orderly, fun answer answered => ?_⟩
    have owed := given sessionId _ own
    obtain ⟨turn, advanced, rfl⟩ := Except.map_eq_ok_iff.1 answered
    have advanced : board.advance now session event env = (.ok turn, _) := Prod.ext advanced rfl
    obtain ⟨key, resides⟩ := resides_of_advance owed advanced
    exact ⟨key, fun waits => ⟨resides waits, fits _ answered waits⟩⟩
  | commit now turn =>
    refine ⟨orderly_commit memory orderly (given sessionId _ own) now, fun answer answered => ?_⟩
    obtain ⟨_, -, rfl⟩ := Except.map_eq_ok_iff.1 answered
    trivial
  | handle stamp id event =>
    cases own
    obtain ⟨kept, resides⟩ := orderly_loadOr memory resolved orderly stamp sessionId default
    cases handled : (board.handle stamp sessionId event traffic.store env).1 with
    | error err =>
      simp only [perform, handled, handle_of_error memory handled]
      exact ⟨kept, fun _ answered => by cases answered⟩
    | ok turn =>
      obtain ⟨session, loaded, load, advanced, committed⟩ := exists_of_handle_eq_ok handled
      rw [load] at kept resides
      obtain ⟨key, stays⟩ := resides_of_advance (resides session rfl) advanced
      have owes : board.Owes codec (board.config.keyFor sessionId) (.turn turn) :=
        ⟨key, fun waits => ⟨stays waits, fits (.turn turn) (Except.map_eq_ok_iff.2 ⟨turn, handled, rfl⟩) waits⟩⟩
      have stored := orderly_commit memory kept owes stamp.now
      rw [committed] at stored
      refine ⟨stored, fun answer answered => ?_⟩
      obtain ⟨_, here, rfl⟩ := Except.map_eq_ok_iff.1 answered
      cases handled.symm.trans here
      exact owes

include memory resolved in
/-- An operation for one session id leaves the records of all others. -/
theorem sameBut_perform {traffic : Traffic C} (orderly : board.Orderly codec traffic.store)
    (given : board.GivenInOrder codec traffic) {sessionId : String} {operation : Operation C}
    (own : operation.For sessionId traffic.given) (env : σ) :
    (board.perform traffic.store env operation).2.1.SameBut (board.config.keyFor sessionId) traffic.store := by
  cases operation with
  | load stamp id context =>
    cases own
    exact sameBut_loadOr memory stamp sessionId context traffic.store
  | start stamp id machine context =>
    cases own
    exact sameBut_start memory stamp sessionId machine context traffic.store
  | advance now session event => exact .refl _ _
  | commit now turn => exact (given sessionId _ own).1 ▸ sameBut_commit memory now turn traffic.store
  | handle stamp id event =>
    cases own
    have left := sameBut_loadOr memory stamp sessionId default traffic.store
    cases handled : (board.handle stamp sessionId event traffic.store env).1 with
    | error err =>
      simp only [perform, handle_of_error memory handled]
      exact left
    | ok turn =>
      obtain ⟨session, loaded, load, advanced, committed⟩ := exists_of_handle_eq_ok handled
      obtain ⟨-, resides⟩ := orderly_loadOr memory resolved orderly stamp sessionId default
      rw [load] at left resides
      have stored := sameBut_commit memory stamp.now turn loaded
      rw [committed, (resides_of_advance (resides session rfl) advanced).1] at stored
      exact stored.trans left

include memory resolved in
/-- All traffic keeps the store in order, and gives clients what belongs to their session ids. -/
theorem Serves.inOrder {traffic : Traffic C} (serves : board.Serves codec traffic) :
    board.Orderly codec traffic.store ∧ board.GivenInOrder codec traffic := by
  induction serves with
  | empty => exact ⟨.empty board codec, fun _ _ mem => nomatch mem⟩
  | @operation traffic sessionId operation env _ own fits ih =>
    obtain ⟨orderly, given⟩ := ih
    obtain ⟨kept, owes⟩ := orderly_perform memory resolved orderly given own env fits
    refine ⟨kept, fun id answer mem => ?_⟩
    rcases mem_given_serve mem with ⟨rfl, answered⟩ | before
    · exact owes answer answered
    · exact given id answer before

/-- Whatever the clients do from an empty store on, each record can be read, names the key it stands under, is of the
current version, and is at a state of a registered machine. An operation for one session id neither adds, nor changes,
nor removes the record of another, which is read as before at any time. -/
theorem Serves.isolated (memory : board.store = MemoryStore.operations C) (resolved : board.Resolved)
    {traffic : Traffic C} (serves : board.Serves codec traffic) :
    (∀ key record, traffic.store.records.get? key = some record →
      ∃ session : Session C, Session.decode traffic.store.codec record.bytes = .ok session ∧ session.key = key ∧
        session.version = Session.currentVersion ∧
        ∃ i, board.interpreters.get? session.machine = some i ∧ i.machine.contains session.state = true) ∧
    ∀ sessionId other operation env, other ≠ sessionId → operation.For sessionId traffic.given →
      (board.serve traffic sessionId operation env).store.records.get? (board.config.keyFor other) =
          traffic.store.records.get? (board.config.keyFor other) ∧
        ∀ now, (board.store.get now (board.config.keyFor other) (board.serve traffic sessionId operation env).store).1 =
          (board.store.get now (board.config.keyFor other) traffic.store).1 := by
  rw [MemoryStore.operations_eq] at memory
  obtain ⟨orderly, given⟩ := serves.inOrder memory resolved
  constructor
  · intro key record found
    obtain ⟨session, decoded, resides⟩ := orderly.records key record found
    exact ⟨session, by rw [orderly.form, decoded], resides.key, resides.version, resides.machine⟩
  · intro sessionId other operation env apart own
    have elsewhere : board.config.keyFor other ≠ board.config.keyFor sessionId :=
      mt (fun same => board.config.keyFor_injective same) apart
    have same := sameBut_perform memory resolved orderly given own env
    refine ⟨same.get? _ elsewhere, fun now => ?_⟩
    rw [memory]
    exact same.get_fst elsewhere _ now

end Store

end Switchboard

theorem resolved_visitBoard : visitBoard.Resolved := by
  intro name i registered
  have inside := (Table.mem_entries_iff _ _ _).2 registered
  rw [visitBoard, List.mem_singleton] at inside
  cases inside
  exact ⟨visitBindings, visitDefinition, rfl⟩

def pubEvent : Event := { kind := .transit, input := "7" }

/-- What is loaded for a session id without a record. -/
def pubSession : Session Rehearsal.Bare :=
  .fresh default "ussd:session:pub" "demo" "menu" {} visitBoard.config.ttl

/-- The turn that a client makes of it. -/
def pubTurn : Turn Rehearsal.Bare :=
  let rest := visitInterpreter.step .epoch "menu" {} pubEvent 0
  { session := pubSession.advanced .epoch rest.state rest.context visitBoard.config.ttl
    disposition := rest.disposition, trace := rest.trace }

/-- A conversation is stored for one session id, and a turn made for another, which is not committed yet. -/
def visitTraffic : Traffic Rehearsal.Bare :=
  let started := visitBoard.serve { store := { codec := .binary } } "tel" (.start default "tel" "demo" {}) 0
  let loaded := visitBoard.serve started "pub" (.load default "pub" {}) 0
  visitBoard.serve loaded "pub" (.advance .epoch pubSession pubEvent) 0

theorem isolated_visitTraffic :
    visitBoard.Serves .binary visitTraffic ∧
      Operation.For "pub" visitTraffic.given (.commit .epoch pubTurn) ∧
      (∃ record, ∃ session : Session Rehearsal.Bare,
        visitTraffic.store.records.get? "ussd:session:tel" = some record ∧
          Session.decode .binary record.bytes = .ok session ∧ session.key = "ussd:session:tel") ∧
      (visitBoard.serve visitTraffic "pub" (.commit .epoch pubTurn) 0).store.records.get? "ussd:session:tel" =
        visitTraffic.store.records.get? "ussd:session:tel" := by
  have gist : (visitInterpreter.step .epoch "menu" {} pubEvent 0).gist =
      ⟨"menu", { feedback := some "7" }, .waiting, [("menu", "count", .event .transit), ("count", "menu", .done)]⟩ := by
    decide +kernel
  have fits : pubTurn.session.FitsIn .binary := by
    rw [Session.FitsIn, show pubTurn.session.state = _ from congrArg Gist.state gist,
      show pubTurn.session.context = _ from congrArg Gist.context gist]
    exact ⟨Rehearsal.Bare.faithful _, by decide +kernel⟩
  have serves : visitBoard.Serves .binary visitTraffic := by
    refine .operation (.operation (.operation .empty rfl ?_) rfl ?_) (.head _) ?_
    · intro answer started
      cases started
      exact ⟨Rehearsal.Bare.faithful _, by decide +kernel⟩
    · intro answer loaded
      cases loaded
      exact ⟨Rehearsal.Bare.faithful _, by decide +kernel⟩
    · intro answer advanced
      cases advanced
      exact fun _ => fits
  have own : Operation.For "pub" visitTraffic.given (.commit .epoch pubTurn) := List.mem_cons_self
  obtain ⟨stored, isolated⟩ := serves.isolated rfl resolved_visitBoard
  obtain ⟨session, decoded, key, -, -⟩ := stored "ussd:session:tel" _ rfl
  exact ⟨serves, own, ⟨_, session, rfl, decoded, key⟩,
    (isolated "pub" "tel" (.commit .epoch pubTurn) 0 (by decide) own).1⟩

end DialMenu
