import DialMenu.Proofs.Time.Saturation
import DialMenu.Session.Switchboard

/-!
What the operations of a board do to the records in memory, whatever form the records are written in. Each of them
reads one record and changes at most one.
-/

namespace DialMenu

variable {C σ : Type}

/-- How records are written and read back. Both may fail. -/
structure RecordForm (C : Type) where
  write : Codec → Session C → Except SessionError Bytes
  read : Codec → Bytes → Except SessionError (Session C)

variable (C) in
/-- The form of encoded contexts, in which every record can be written. -/
def RecordForm.encoded [Encoded C] : RecordForm C where
  write := Session.encode
  read := Session.decode

namespace MemoryStore

/-- The record under a key, unless it has expired. -/
def live? (now : Instant) (key : String) (store : MemoryStore) : Option Record :=
  (store.records.get? key).filter fun record => record.isLive now

/-- The operations of the table in any form of records. -/
def operationsIn (form : RecordForm C) : SessionStore MemoryStore C where
  get now key store :=
    match store.live? now key with
    | some record => (some <$> form.read store.codec record.bytes, store)
    | none => (.ok none, store.without key)
  set now session ttl store :=
    match form.write store.codec session with
    | .error err => (.error err, store)
    | .ok bytes =>
      if longestLifetime < ttl.total then
        (.error (.store "Source duration value is out of range for the target type"), store)
      else (.ok (), store.holding session.key { bytes, expiresAt := now.addSaturating ttl })
  delete key store := (.ok (), store.without key)

section Lookup

variable {store : MemoryStore} {now later : Instant} {key other : String} {record : Record}

theorem live?_eq_some_iff :
    store.live? now key = some record ↔ store.records.get? key = some record ∧ now < record.expiresAt := by
  simp [live?, Option.filter_eq_some_iff, Record.isLive]

theorem live?_of_get?_eq_none (missing : store.records.get? key = none) : store.live? now key = none := by
  rw [live?, missing]
  rfl

/-- Removing nothing changes nothing. -/
theorem without_of_get?_eq_none (missing : store.records.get? key = none) : store.without key = store := by
  have same : (store.without key).records = store.records := by
    refine Table.ext_get? fun other => ?_
    rw [get?_without]
    split
    · rename_i here
      rw [← here, missing]
    · rfl
  exact congrArg (MemoryStore.mk store.codec) same

theorem live?_without (store : MemoryStore) (now : Instant) (key other : String) :
    (store.without key).live? now other = if key = other then none else store.live? now other := by
  rw [live?, get?_without]
  split
  · rfl
  · rfl

/-- A record that has expired stays so. -/
theorem live?_eq_none_of_le (gone : store.live? now key = none) (order : now ≤ later) :
    store.live? later key = none := by
  refine Option.eq_none_iff_forall_ne_some.2 fun record found => ?_
  obtain ⟨stored, live⟩ := live?_eq_some_iff.1 found
  have earlier : now < record.expiresAt := Instant.lt_of_le_of_lt order live
  rw [live?_eq_some_iff.2 ⟨stored, earlier⟩] at gone
  cases gone

end Lookup

/-- Records of encoded contexts are kept as in any other form. -/
theorem operations_eq [Encoded C] : operations C = operationsIn (.encoded C) := by
  have gets : (get : Instant → String → MemoryStore → _ × MemoryStore) = (operationsIn (.encoded C)).get := by
    funext now key store
    simp only [get, operationsIn, live?]
    cases found : store.records.get? key with
    | none => exact congrArg _ (without_of_get?_eq_none found).symm
    | some record =>
      cases live : record.isLive now with
      | true =>
        simp only [Option.filter, live, if_true]
        rfl
      | false => simp [Option.filter, live]
  exact congrArg (SessionStore.mk · _ _) gets

section Operations

variable {form : RecordForm C}

/-- Reading answers from the live record alone. -/
theorem get_fst (form : RecordForm C) (now : Instant) (key : String) (store : MemoryStore) :
    ((operationsIn form).get now key store).1 =
      match store.live? now key with
      | some record => some <$> form.read store.codec record.bytes
      | none => .ok none := by
  simp only [operationsIn]
  split <;> rfl

/-- A record is written, or nothing is. -/
theorem set_cases (form : RecordForm C) (now : Instant) (session : Session C) (ttl : Duration)
    (store : MemoryStore) :
    (∃ err, (operationsIn form).set now session ttl store = (.error err, store)) ∨
      ∃ bytes, form.write store.codec session = .ok bytes ∧ ttl.total ≤ longestLifetime ∧
        (operationsIn form).set now session ttl store =
          (.ok (), store.holding session.key { bytes, expiresAt := now.addSaturating ttl }) := by
  simp only [operationsIn]
  cases written : form.write store.codec session with
  | error err => exact .inl ⟨err, rfl⟩
  | ok bytes =>
    by_cases tooLong : longestLifetime < ttl.total
    · exact .inl ⟨_, if_pos tooLong⟩
    · exact .inr ⟨bytes, rfl, Nat.le_of_not_lt tooLong, if_neg tooLong⟩

end Operations

/-- From this instant on no reading tells the stores apart. -/
structure SameFrom (now : Instant) (store other : MemoryStore) : Prop where
  codec : store.codec = other.codec
  live? : ∀ later, now ≤ later → ∀ key, store.live? later key = other.live? later key

namespace SameFrom

variable {now : Instant} {store other : MemoryStore}

theorem refl (now : Instant) (store : MemoryStore) : store.SameFrom now store := ⟨rfl, fun _ _ _ => rfl⟩

theorem without {key : String} (gone : store.live? now key = none) : (store.without key).SameFrom now store where
  codec := rfl
  live? later order here := by
    rw [live?_without]
    split
    · rename_i same
      rw [← same, live?_eq_none_of_le gone order]
    · rfl

theorem get_fst {later : Instant} (same : store.SameFrom now other) (order : now ≤ later) (form : RecordForm C)
    (key : String) : ((operationsIn form).get later key store).1 = ((operationsIn form).get later key other).1 := by
  rw [MemoryStore.get_fst, MemoryStore.get_fst, same.live? later order key, same.codec]

end SameFrom

/-- The stores differ at most in the record under the key. -/
structure SameBut (key : String) (store other : MemoryStore) : Prop where
  codec : store.codec = other.codec
  get? : ∀ here, here ≠ key → store.records.get? here = other.records.get? here

namespace SameBut

variable {key : String} {store other third : MemoryStore}

theorem refl (key : String) (store : MemoryStore) : store.SameBut key store := ⟨rfl, fun _ _ => rfl⟩

theorem trans (first : store.SameBut key other) (second : other.SameBut key third) : store.SameBut key third where
  codec := first.codec.trans second.codec
  get? here elsewhere := (first.get? here elsewhere).trans (second.get? here elsewhere)

theorem without (key : String) (store : MemoryStore) : (store.without key).SameBut key store where
  codec := rfl
  get? here elsewhere := by rw [get?_without, if_neg elsewhere.symm]

theorem holding (key : String) (record : Record) (store : MemoryStore) :
    (store.holding key record).SameBut key store where
  codec := rfl
  get? here elsewhere := by rw [get?_holding, if_neg elsewhere.symm]

/-- No reading of another record tells the stores apart. -/
theorem get_fst (same : store.SameBut key other) {here : String} (elsewhere : here ≠ key) (form : RecordForm C)
    (now : Instant) : ((operationsIn form).get now here store).1 = ((operationsIn form).get now here other).1 := by
  rw [MemoryStore.get_fst, MemoryStore.get_fst, live?, live?, same.get? here elsewhere, same.codec]

end SameBut

end MemoryStore

namespace Switchboard

section Fresh

variable {S : Type} {board : Switchboard C σ S}

theorem fresh_eq_ok_iff {stamp : Stamp} {sessionId machine : String} {context : C} {session : Session C} :
    board.fresh stamp sessionId machine context = .ok session ↔ ∃ i, board.interpreters.get? machine = some i ∧
      session = .fresh stamp (board.config.keyFor sessionId) machine i.machine.initial context board.config.ttl := by
  unfold fresh interpreter
  cases board.interpreters.get? machine with
  | none => exact ⟨nofun, nofun⟩
  | some i =>
    constructor
    · intro made
      cases made
      exact ⟨i, rfl, rfl⟩
    · rintro ⟨_, registered, rfl⟩
      cases registered
      rfl

theorem fresh_of_unregistered {machine : String} (unregistered : board.interpreters.get? machine = none)
    (stamp : Stamp) (sessionId : String) (context : C) :
    board.fresh stamp sessionId machine context = .error (.unknownMachine machine) := by
  rw [fresh, interpreter, unregistered]
  rfl

variable [Context C]

theorem advance_of_unregistered {session : Session C} (unregistered : board.interpreters.get? session.machine = none)
    (now : Instant) (event : Event) (env : σ) :
    board.advance now session event env = (.error (.unknownMachine session.machine), env) := by
  rw [advance, interpreter, unregistered]

/-- A turn is a step from where the conversation stands. -/
theorem advance_eq_ok_iff {now : Instant} {session : Session C} {event : Event} {env env' : σ} {turn : Turn C} :
    board.advance now session event env = (.ok turn, env') ↔ ∃ i, board.interpreters.get? session.machine = some i ∧
      turn.session = session.advanced now (i.step now session.state session.context event env).state
        (i.step now session.state session.context event env).context board.config.ttl ∧
      turn.disposition = (i.step now session.state session.context event env).disposition ∧
      turn.trace = (i.step now session.state session.context event env).trace ∧
      env' = (i.step now session.state session.context event env).env := by
  unfold advance interpreter
  cases board.interpreters.get? session.machine with
  | none => exact ⟨nofun, nofun⟩
  | some i =>
    constructor
    · intro made
      cases made
      exact ⟨i, rfl, rfl, rfl, rfl, rfl⟩
    · rintro ⟨_, registered, place, disposition, trace, left⟩
      cases registered
      obtain ⟨_, _, _⟩ := turn
      dsimp only at place disposition trace
      rw [place, disposition, trace, left]

end Fresh

section Memory

variable {board : Switchboard C σ MemoryStore} {form : RecordForm C}

/-- The live record is loaded, and a new conversation made if there is none. -/
theorem loadOr_eq (memory : board.store = MemoryStore.operationsIn form) (stamp : Stamp) (sessionId : String)
    (context : C) (store : MemoryStore) :
    board.loadOr stamp sessionId context store =
      match store.live? stamp.now (board.config.keyFor sessionId) with
      | some record => (form.read store.codec record.bytes, store)
      | none => (board.fresh stamp sessionId board.config.entry context,
          store.without (board.config.keyFor sessionId)) := by
  rw [loadOr, memory]
  dsimp only [MemoryStore.operationsIn]
  cases store.live? stamp.now (board.config.keyFor sessionId) with
  | none => rfl
  | some record =>
    dsimp only
    cases form.read store.codec record.bytes <;> rfl

/-- What is loaded is read from the live record, or new if there is none. -/
theorem loadOr_cases (memory : board.store = MemoryStore.operationsIn form) {stamp : Stamp} {sessionId : String}
    {context : C} {store loaded : MemoryStore} {session : Session C}
    (load : board.loadOr stamp sessionId context store = (.ok session, loaded)) :
    (∃ record, store.live? stamp.now (board.config.keyFor sessionId) = some record ∧
      form.read store.codec record.bytes = .ok session ∧ loaded = store) ∨
    board.fresh stamp sessionId board.config.entry context = .ok session ∧
      loaded = store.without (board.config.keyFor sessionId) := by
  rw [loadOr_eq memory] at load
  cases live : store.live? stamp.now (board.config.keyFor sessionId) with
  | none =>
    rw [live] at load
    obtain ⟨made, rest⟩ := Prod.mk.inj load
    exact .inr ⟨made, rest.symm⟩
  | some record =>
    rw [live] at load
    obtain ⟨read, rest⟩ := Prod.mk.inj load
    exact .inl ⟨record, rfl, read, rest.symm⟩

/-- Loading removes an expired record, which no reading shows. -/
theorem sameFrom_loadOr (memory : board.store = MemoryStore.operationsIn form) (stamp : Stamp) (sessionId : String)
    (context : C) (store : MemoryStore) :
    (board.loadOr stamp sessionId context store).2.SameFrom stamp.now store := by
  rw [loadOr_eq memory]
  cases gone : store.live? stamp.now (board.config.keyFor sessionId) with
  | none => exact .without gone
  | some record => exact .refl _ _

theorem sameBut_loadOr (memory : board.store = MemoryStore.operationsIn form) (stamp : Stamp) (sessionId : String)
    (context : C) (store : MemoryStore) :
    (board.loadOr stamp sessionId context store).2.SameBut (board.config.keyFor sessionId) store := by
  rw [loadOr_eq memory]
  cases store.live? stamp.now (board.config.keyFor sessionId) with
  | none => exact .without _ _
  | some record => exact .refl _ _

/-- A new conversation is stored, or nothing is. -/
theorem start_cases (memory : board.store = MemoryStore.operationsIn form) (stamp : Stamp)
    (sessionId machine : String) (context : C) (store : MemoryStore) :
    (∃ err, board.start stamp sessionId machine context store = (.error err, store)) ∨
      ∃ session bytes, board.fresh stamp sessionId machine context = .ok session ∧
        form.write store.codec session = .ok bytes ∧
        board.start stamp sessionId machine context store = (.ok session,
          store.holding session.key { bytes, expiresAt := stamp.now.addSaturating board.config.ttl }) := by
  cases made : board.fresh stamp sessionId machine context with
  | error err => exact .inl ⟨err, by rw [start, made]⟩
  | ok session =>
    have sets : board.start stamp sessionId machine context store =
        (((MemoryStore.operationsIn form).set stamp.now session board.config.ttl store).1.map fun _ => session,
          ((MemoryStore.operationsIn form).set stamp.now session board.config.ttl store).2) := by
      rw [start, made, memory]
    rcases MemoryStore.set_cases form stamp.now session board.config.ttl store with
      ⟨err, refused⟩ | ⟨bytes, written, -, stored⟩
    · exact .inl ⟨err, by rw [sets, refused]; rfl⟩
    · exact .inr ⟨session, bytes, rfl, written, by rw [sets, stored]; rfl⟩

/-- A failed start leaves the store. -/
theorem start_of_error (memory : board.store = MemoryStore.operationsIn form) {stamp : Stamp}
    {sessionId machine : String} {context : C} {store : MemoryStore} {err : SessionError}
    (failed : (board.start stamp sessionId machine context store).1 = .error err) :
    (board.start stamp sessionId machine context store).2 = store := by
  rcases start_cases memory stamp sessionId machine context store with ⟨_, same⟩ | ⟨_, _, -, -, stored⟩
  · rw [same]
  · rw [stored] at failed
    cases failed

theorem sameBut_start (memory : board.store = MemoryStore.operationsIn form) (stamp : Stamp)
    (sessionId machine : String) (context : C) (store : MemoryStore) :
    (board.start stamp sessionId machine context store).2.SameBut (board.config.keyFor sessionId) store := by
  rcases start_cases memory stamp sessionId machine context store with ⟨_, same⟩ | ⟨session, _, made, -, stored⟩
  · rw [same]
    exact .refl _ _
  · obtain ⟨i, -, rfl⟩ := fresh_eq_ok_iff.1 made
    rw [stored]
    exact .holding _ _ _

/-- A terminal turn removes its record. Any other turn stores its conversation, or nothing. -/
theorem commit_cases (memory : board.store = MemoryStore.operationsIn form) (now : Instant) (turn : Turn C)
    (store : MemoryStore) :
    (turn.isTerminal = true ∧ board.commit now turn store = (.ok (), store.without turn.session.key)) ∨
      (turn.isTerminal = false ∧ ∃ err, board.commit now turn store = (.error err, store)) ∨
      (turn.isTerminal = false ∧ ∃ bytes, form.write store.codec turn.session = .ok bytes ∧
        board.commit now turn store = (.ok (), store.holding turn.session.key
          { bytes, expiresAt := now.addSaturating board.config.ttl })) := by
  rw [commit, memory]
  cases turn.isTerminal with
  | true => exact .inl ⟨rfl, rfl⟩
  | false =>
    rcases MemoryStore.set_cases form now turn.session board.config.ttl store with
      ⟨err, refused⟩ | ⟨bytes, written, -, stored⟩
    · exact .inr (.inl ⟨rfl, err, refused⟩)
    · exact .inr (.inr ⟨rfl, bytes, written, stored⟩)

/-- What a commit leaves under the key of its turn. -/
theorem get?_of_commit [Encoded C] (memory : board.store = MemoryStore.operationsIn (.encoded C)) {now : Instant}
    {turn : Turn C} {store left : MemoryStore} (committed : board.commit now turn store = (.ok (), left)) :
    left.records.get? turn.session.key =
      if turn.isTerminal then none
      else some ⟨turn.session.written store.codec, now.addSaturating board.config.ttl⟩ := by
  rcases commit_cases memory now turn store with
    ⟨terminal, removed⟩ | ⟨-, _, refused⟩ | ⟨waits, bytes, written, kept⟩
  · cases removed.symm.trans committed
    rw [MemoryStore.get?_without, if_pos rfl, if_pos terminal]
  · cases refused.symm.trans committed
  · cases kept.symm.trans committed
    cases written
    rw [MemoryStore.get?_holding, if_pos rfl, if_neg (by simp [waits])]

/-- A failed commit leaves the store. -/
theorem commit_of_error (memory : board.store = MemoryStore.operationsIn form) {now : Instant} {turn : Turn C}
    {store : MemoryStore} {err : SessionError} (failed : (board.commit now turn store).1 = .error err) :
    (board.commit now turn store).2 = store := by
  rcases commit_cases memory now turn store with ⟨-, same⟩ | ⟨-, _, same⟩ | ⟨-, _, -, stored⟩
  · rw [same] at failed
    cases failed
  · rw [same]
  · rw [stored] at failed
    cases failed

theorem sameBut_commit (memory : board.store = MemoryStore.operationsIn form) (now : Instant) (turn : Turn C)
    (store : MemoryStore) : (board.commit now turn store).2.SameBut turn.session.key store := by
  rcases commit_cases memory now turn store with ⟨-, removed⟩ | ⟨-, _, same⟩ | ⟨-, _, -, stored⟩
  · rw [removed]
    exact .without _ _
  · rw [same]
    exact .refl _ _
  · rw [stored]
    exact .holding _ _ _

end Memory

/-- A request that is answered was loaded, advanced and committed. -/
theorem exists_of_handle_eq_ok {S : Type} {board : Switchboard C σ S} [Context C] [Inhabited C] {stamp : Stamp}
    {sessionId : String} {event : Event} {store : S} {env : σ} {turn : Turn C}
    (handled : (board.handle stamp sessionId event store env).1 = .ok turn) : ∃ session loaded,
      board.loadOr stamp sessionId default store = (.ok session, loaded) ∧
      board.advance stamp.now session event env = (.ok turn, (board.handle stamp sessionId event store env).2.2) ∧
      board.commit stamp.now turn loaded = (.ok (), (board.handle stamp sessionId event store env).2.1) := by
  unfold handle at handled ⊢
  cases load : board.loadOr stamp sessionId default store with
  | mk result loaded =>
    cases result with
    | error err => simp only [load, reduceCtorEq] at handled
    | ok session =>
      simp only [load] at handled ⊢
      cases advanced : board.advance stamp.now session event env with
      | mk result env' =>
        cases result with
        | error err => simp only [advanced, reduceCtorEq] at handled
        | ok made =>
          simp only [advanced] at handled ⊢
          cases committed : board.commit stamp.now made loaded with
          | mk result left =>
            cases result with
            | error err => simp only [committed, Except.map, reduceCtorEq] at handled
            | ok done =>
              simp only [committed] at handled
              cases handled
              exact ⟨session, loaded, rfl, advanced, committed⟩

end Switchboard

end DialMenu
