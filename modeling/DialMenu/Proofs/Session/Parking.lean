import DialMenu.Proofs.Interpreter.Adequacy
import DialMenu.Proofs.Session.Place
import DialMenu.Session.Switchboard

/-!
Where stored conversations stand. A turn stores a conversation only where its machine waits for input. A new one is
stored at the beginning of its machine, without a turn. So a run can leave a conversation in a state that goes on by
itself, or in a final one, exactly if a registered machine begins in such a state.
-/

namespace DialMenu

variable {C σ : Type}

/-- The machine waits for input there: the state is not final, and entering it causes nothing. -/
def Machine.Waits (machine : Machine C σ) (id : String) : Prop :=
  ∃ state, machine.state? id = some state ∧ state.isFinal = false ∧ state.raise = none ∧ state.call = none

section Machine

variable {b : Bindings C σ} {definition : Definition} {machine : Machine C σ}

theorem Bindings.initial_eq_of_compile (compiled : b.compile definition = .ok machine) :
    machine.initial = definition.initial := by
  obtain ⟨states, -, done⟩ := Except.bind_eq_ok_iff.1 compiled
  cases done
  rfl

theorem Bindings.contains_initial (resolved : b.resolve definition = .ok machine) :
    machine.contains machine.initial = true := by
  obtain ⟨sound, compiled⟩ := Bindings.wellFormed_of_resolve resolved
  obtain ⟨state, found⟩ := Bindings.contains_of_declared compiled sound.initial
  rw [Machine.contains, Bindings.initial_eq_of_compile compiled, found]
  rfl

/-- A turn that waits has come to a state where the machine waits, or has left the conversation where it was. -/
theorem Interpreter.waits_of_waiting [Context C] {i : Interpreter C σ} {now : Instant} {state : String} {context : C}
    {event : Event} {env : σ} (resolved : b.resolve definition = .ok i.machine)
    (waiting : (i.step now state context event env).disposition = .waiting) :
    i.machine.Waits (i.step now state context event env).state ∨
      (i.step now state context event env).state = state := by
  obtain ⟨sound, compiled⟩ := Bindings.wellFormed_of_resolve resolved
  rcases i.step_cases now state context event env with
    ⟨-, same⟩ | ⟨current, -, -, same⟩ | ⟨current, last, -, -, walk, ending⟩
  · rw [same] at waiting
    cases waiting
  · exact .inr (by rw [same])
  · obtain ⟨first, later, hops, -, -⟩ := walk.head
    exact .inl ((ending.adequate sound compiled walk).waiting (by simp [hops]) waiting)

end Machine

section Store

variable [Encoded C] {store : MemoryStore} {codec : Codec} {p q : Session.Place → Prop}

variable (C) in
/-- Every record in the table is of a conversation at a place with the property. -/
structure MemoryStore.KeepsOnly (codec : Codec) (p : Session.Place → Prop) (store : MemoryStore) : Prop where
  form : store.codec = codec
  records : ∀ key record, store.records.get? key = some record →
    ∃ session : Session C, record.bytes = session.written codec ∧ session.key = key ∧ p session.place

namespace MemoryStore.KeepsOnly

theorem imp (keeps : store.KeepsOnly C codec p) (weaker : ∀ place, p place → q place) :
    store.KeepsOnly C codec q where
  form := keeps.form
  records key record found := by
    obtain ⟨session, written, here, holds⟩ := keeps.records key record found
    exact ⟨session, written, here, weaker _ holds⟩

theorem empty : MemoryStore.KeepsOnly C codec p { codec } where
  form := rfl
  records key record found := by cases found

theorem without (keeps : store.KeepsOnly C codec p) (key : String) :
    (store.without key).KeepsOnly C codec p where
  form := keeps.form
  records other record found := by
    rw [get?_without] at found
    split at found
    · cases found
    · exact keeps.records other record found

theorem set (keeps : store.KeepsOnly C codec p) {session : Session C} (here : p session.place) (now : Instant)
    (ttl : Duration) : (MemoryStore.set now session ttl store).2.KeepsOnly C codec p := by
  rw [set_eq]
  split
  · exact keeps
  · refine ⟨keeps.form, fun key record found => ?_⟩
    rw [get?_holding] at found
    split at found
    · rename_i same
      cases found
      exact ⟨session, by rw [keeps.form], same, here⟩
    · exact keeps.records key record found

/-- What is read is of a conversation at a place with the property. -/
theorem get (keeps : store.KeepsOnly C codec p) (held : ∀ place, p place → place.HeldBy codec) (now : Instant)
    (key : String) :
    (MemoryStore.get (C := C) now key store).2.KeepsOnly C codec p ∧
      ∀ session : Session C, (MemoryStore.get now key store).1 = .ok (some session) → p session.place := by
  unfold MemoryStore.get
  cases found : store.records.get? key with
  | none => exact ⟨keeps, fun session read => nomatch Except.ok.inj read⟩
  | some record =>
    dsimp only
    split
    · refine ⟨keeps, fun session read => ?_⟩
      obtain ⟨written, bytes, -, holds⟩ := keeps.records key record found
      rw [bytes, keeps.form] at read
      cases decoded : (Session.decode codec (written.written codec) : Except SessionError (Session C)) with
      | error err =>
        rw [decoded] at read
        cases read
      | ok read' =>
        rw [decoded] at read
        cases read
        exact Session.place_of_decode (held _ holds) decoded ▸ holds
    · exact ⟨keeps.without key, fun session read => nomatch Except.ok.inj read⟩

end MemoryStore.KeepsOnly

theorem MemoryStore.get?_set {ttl : Duration} (countable : ttl.total ≤ longestLifetime) (session : Session C)
    (now : Instant) (store : MemoryStore) : (MemoryStore.set now session ttl store).2.records.get? session.key =
      some ⟨session.written store.codec, now.addSaturating ttl⟩ := by
  rw [set_eq, if_neg (Nat.not_lt_of_le countable)]
  exact (get?_holding _ _ _ _).trans (if_pos rfl)

end Store

namespace Switchboard

variable [Encoded C]

/-- The conversations are kept in memory and their lifetime can be counted; the registered machines passed the checks,
and the form of the records can hold their names. -/
structure Sound (board : Switchboard C σ MemoryStore) (codec : Codec) : Prop where
  operations : board.store = MemoryStore.operations C
  lifetime : board.config.ttl.total ≤ MemoryStore.longestLifetime
  resolved : ∀ name i, board.interpreters.get? name = some i →
    ∃ (b : Bindings C σ) (definition : Definition), b.resolve definition = .ok i.machine
  names : ∀ name i, board.interpreters.get? name = some i →
    codec.Holds name ∧ ∀ id, i.machine.contains id = true → codec.Holds id

/-- The machine of the conversation waits for input where the conversation stands. -/
def AtRest (board : Switchboard C σ MemoryStore) (place : Session.Place) : Prop :=
  ∃ i, board.interpreters.get? place.machine = some i ∧ i.machine.Waits place.state

/-- The conversation stands at the beginning of its machine. -/
def AtBeginning (board : Switchboard C σ MemoryStore) (place : Session.Place) : Prop :=
  ∃ i, board.interpreters.get? place.machine = some i ∧ place.state = i.machine.initial

variable [Context C] [Inhabited C]

/-- The stores that a run leaves behind, from an empty one on: it starts conversations and handles events, in any
order and for any session ids whose keys the form of the records can hold. -/
inductive Reached (board : Switchboard C σ MemoryStore) (codec : Codec) : MemoryStore → Prop
  | empty : Reached board codec { codec }
  | start {store : MemoryStore} {sessionId : String} : Reached board codec store →
      codec.Holds (board.config.keyFor sessionId) → ∀ stamp machine context,
      Reached board codec (board.start stamp sessionId machine context store).2
  | handle {store : MemoryStore} {sessionId : String} : Reached board codec store →
      codec.Holds (board.config.keyFor sessionId) → ∀ stamp event env,
      Reached board codec (board.handle stamp sessionId event store env).2.1

/-- Every record that a run keeps is of a conversation whose machine waits for input there. -/
def NeverParks (board : Switchboard C σ MemoryStore) (codec : Codec) : Prop :=
  ∀ store, board.Reached codec store → store.KeepsOnly C codec board.AtRest

variable {board : Switchboard C σ MemoryStore} {codec : Codec} {store : MemoryStore}

/-- Where a run stores a conversation: at rest or at the beginning of its machine, under a key that the form can
hold. -/
def Proper (board : Switchboard C σ MemoryStore) (codec : Codec) (place : Session.Place) : Prop :=
  (board.AtRest place ∨ board.AtBeginning place) ∧ codec.Holds place.key

omit [Context C] [Inhabited C] in
theorem Sound.heldBy (sound : board.Sound codec) {place : Session.Place} (proper : board.Proper codec place) :
    place.HeldBy codec := by
  obtain ⟨stands, key⟩ := proper
  rcases stands with ⟨i, registered, state, found, -⟩ | ⟨i, registered, initial⟩
  · obtain ⟨machine, states⟩ := sound.names _ i registered
    exact ⟨key, machine, states _ (by rw [Machine.contains, found]; rfl)⟩
  · obtain ⟨machine, states⟩ := sound.names _ i registered
    obtain ⟨b, definition, resolved⟩ := sound.resolved _ i registered
    exact ⟨key, machine, states _ (by rw [initial]; exact Bindings.contains_initial resolved)⟩

omit [Context C] [Inhabited C] in
theorem Sound.keepsOnly_get (sound : board.Sound codec) (keeps : store.KeepsOnly C codec (board.Proper codec))
    (now : Instant) (key : String) :
    (board.store.get now key store).2.KeepsOnly C codec (board.Proper codec) ∧
      ∀ session, (board.store.get now key store).1 = .ok (some session) → board.Proper codec session.place := by
  rw [sound.operations]
  exact keeps.get (fun _ => sound.heldBy) now key

omit [Context C] [Inhabited C] in
theorem Sound.keepsOnly_set (sound : board.Sound codec) (keeps : store.KeepsOnly C codec (board.Proper codec))
    {session : Session C} (proper : board.Proper codec session.place) (now : Instant) (ttl : Duration) :
    (board.store.set now session ttl store).2.KeepsOnly C codec (board.Proper codec) := by
  rw [sound.operations]
  exact keeps.set proper now ttl

omit [Context C] [Inhabited C] in
/-- The record of a conversation that was started. -/
theorem Sound.get?_start (sound : board.Sound codec) {stamp : Stamp} {sessionId machine : String} {context : C}
    {session : Session C} (made : board.fresh stamp sessionId machine context = .ok session) (store : MemoryStore) :
    (board.start stamp sessionId machine context store).2.records.get? session.key =
      some ⟨session.written store.codec, stamp.now.addSaturating board.config.ttl⟩ := by
  have stored : (board.start stamp sessionId machine context store).2 =
      (board.store.set stamp.now session board.config.ttl store).2 := by
    rw [start, made]
  rw [stored, sound.operations]
  exact MemoryStore.get?_set sound.lifetime session stamp.now store

omit [Encoded C] [Context C] [Inhabited C] in
/-- A new conversation is at the beginning of its machine. -/
theorem proper_of_fresh {stamp : Stamp} {sessionId machine : String} {context : C} {session : Session C}
    (holds : codec.Holds (board.config.keyFor sessionId))
    (made : board.fresh stamp sessionId machine context = .ok session) : board.Proper codec session.place := by
  unfold fresh interpreter at made
  split at made
  · rename_i i registered
    cases made
    exact ⟨.inr ⟨i, registered, rfl⟩, holds⟩
  · cases made

omit [Context C] [Inhabited C] in
theorem keepsOnly_start (sound : board.Sound codec) (keeps : store.KeepsOnly C codec (board.Proper codec))
    {sessionId : String} (holds : codec.Holds (board.config.keyFor sessionId)) (stamp : Stamp) (machine : String)
    (context : C) : (board.start stamp sessionId machine context store).2.KeepsOnly C codec (board.Proper codec) := by
  unfold start
  cases made : board.fresh stamp sessionId machine context with
  | error err => exact keeps
  | ok session => exact sound.keepsOnly_set keeps (proper_of_fresh holds made) stamp.now board.config.ttl

omit [Context C] [Inhabited C] in
theorem keepsOnly_loadOr (sound : board.Sound codec) (keeps : store.KeepsOnly C codec (board.Proper codec))
    {sessionId : String} (holds : codec.Holds (board.config.keyFor sessionId)) (stamp : Stamp) (context : C) :
    (board.loadOr stamp sessionId context store).2.KeepsOnly C codec (board.Proper codec) ∧
      ∀ session, (board.loadOr stamp sessionId context store).1 = .ok session → board.Proper codec session.place := by
  obtain ⟨kept, read⟩ := sound.keepsOnly_get keeps stamp.now (board.config.keyFor sessionId)
  unfold loadOr
  generalize board.store.get stamp.now (board.config.keyFor sessionId) store = outcome at kept read ⊢
  obtain ⟨_ | _ | session, store'⟩ := outcome
  · exact ⟨kept, fun session loaded => nomatch loaded⟩
  · exact ⟨kept, fun session loaded => proper_of_fresh holds loaded⟩
  · refine ⟨kept, fun session' loaded => ?_⟩
    cases loaded
    exact read session rfl

omit [Context C] [Inhabited C] in
theorem keepsOnly_commit (sound : board.Sound codec) (keeps : store.KeepsOnly C codec (board.Proper codec))
    {turn : Turn C} (proper : turn.disposition = .waiting → board.Proper codec turn.session.place) (now : Instant) :
    (board.commit now turn store).2.KeepsOnly C codec (board.Proper codec) := by
  unfold commit
  split
  · rw [sound.operations]
    exact keeps.without turn.session.key
  · rename_i waits
    refine sound.keepsOnly_set keeps (proper ?_) now board.config.ttl
    simpa [Turn.isTerminal, Disposition.isTerminal] using waits

omit [Inhabited C] in
/-- A turn that waits leaves a conversation where a run may store it. -/
theorem proper_of_advance (sound : board.Sound codec) {session : Session C} {turn : Turn C} {now : Instant}
    {event : Event} {env env' : σ} (proper : board.Proper codec session.place)
    (advanced : board.advance now session event env = (.ok turn, env')) (waits : turn.disposition = .waiting) :
    board.Proper codec turn.session.place := by
  obtain ⟨stands, key⟩ := proper
  unfold advance interpreter at advanced
  cases registered : board.interpreters.get? session.machine with
  | none =>
    rw [registered] at advanced
    cases advanced
  | some i =>
    rw [registered] at advanced
    cases advanced
    obtain ⟨b, definition, resolved⟩ := sound.resolved _ i registered
    refine ⟨?_, key⟩
    rcases Interpreter.waits_of_waiting resolved waits with here | stays
    · exact .inl ⟨i, registered, here⟩
    · -- the event was ignored
      rw [Session.place, ← stays] at stands
      exact stands

theorem keepsOnly_handle (sound : board.Sound codec) (keeps : store.KeepsOnly C codec (board.Proper codec))
    {sessionId : String} (holds : codec.Holds (board.config.keyFor sessionId)) (stamp : Stamp) (event : Event)
    (env : σ) : (board.handle stamp sessionId event store env).2.1.KeepsOnly C codec (board.Proper codec) := by
  obtain ⟨kept, proper⟩ := keepsOnly_loadOr sound keeps holds stamp default
  unfold handle
  generalize board.loadOr stamp sessionId default store = loaded at kept proper
  obtain ⟨_ | session, store'⟩ := loaded
  · exact kept
  · have here := proper session rfl
    dsimp only
    cases advanced : board.advance stamp.now session event env with
    | mk outcome env' =>
      cases outcome with
      | error err => exact kept
      | ok turn =>
        have stored := keepsOnly_commit sound kept (proper_of_advance sound here advanced) stamp.now
        dsimp only
        generalize board.commit stamp.now turn store' = committed at stored ⊢
        exact stored

/-- Whatever a run stores is at rest, or still where a new conversation was put. -/
theorem Reached.keepsOnly (sound : board.Sound codec) (reached : board.Reached codec store) :
    store.KeepsOnly C codec (board.Proper codec) := by
  induction reached with
  | empty => exact .empty
  | start _ holds stamp machine context keeps => exact keepsOnly_start sound keeps holds stamp machine context
  | handle _ holds stamp event env keeps => exact keepsOnly_handle sound keeps holds stamp event env

/-- No run parks a conversation where input cannot reach it, exactly if every registered machine begins in a state
that waits for input. -/
theorem neverParks_iff (sound : board.Sound codec) (holds : codec.Holds (board.config.keyFor "")) :
    board.NeverParks codec ↔
      ∀ name i, board.interpreters.get? name = some i → i.machine.Waits i.machine.initial := by
  constructor
  · intro never name i registered
    let session : Session C := .fresh default (board.config.keyFor "") name i.machine.initial default board.config.ttl
    have made : board.fresh default "" name default = .ok session := by
      rw [fresh, interpreter, registered]
      rfl
    have reached : board.Reached codec _ := .start .empty holds default name default
    have stored := sound.get?_start made { codec }
    obtain ⟨resting, written, here, rest⟩ := (never _ reached).records _ _ stored
    have key : codec.Holds resting.place.key := by
      rw [Session.place, here]
      exact holds
    -- the record is that of the new conversation, so the place where the machine waits is its beginning
    have place : resting.place = session.place :=
      Session.place_of_written_eq (sound.heldBy ⟨.inl rest, key⟩) (sound.heldBy (proper_of_fresh holds made))
        written.symm
    rw [place] at rest
    obtain ⟨i', registered', waits⟩ := rest
    cases Option.some.inj (registered.symm.trans registered')
    exact waits
  · intro waits store reached
    refine (reached.keepsOnly sound).imp fun place proper => ?_
    rcases proper.1 with rest | ⟨i, registered, initial⟩
    · exact rest
    · exact ⟨i, registered, initial ▸ waits _ i registered⟩

end Switchboard

/-- A menu, and a state that leads to it with a feedback tag, in which conversations may begin just as well. -/
def parkingDefinition (initial : String) : Definition where
  id := "demo"
  initial
  states := ⟨[
    ("exit", { kind := .final }),
    ("menu", { on := ⟨[(.transit, [{ target := "exit" }])], by decide⟩ }),
    ("retry", {
      raise := some { kind := .retry, feedback := some "again" }
      on := ⟨[(.retry, [{ target := "menu" }])], by decide⟩ })], by decide⟩

def parkingInterpreter (initial : String) : Interpreter Rehearsal.Bare Unit where
  machine :=
    match Bindings.empty.resolve (parkingDefinition initial) with
    | .ok machine => machine
    | .error _ => { id := "", initial := "", states := .empty }

def parkingBoard (initial : String) : Switchboard Rehearsal.Bare Unit MemoryStore where
  interpreters := ⟨[("demo", parkingInterpreter initial)], List.pairwise_singleton _ _⟩
  store := MemoryStore.operations Rehearsal.Bare
  config := { entry := "demo" }

theorem parkingBoard_interpreters {initial name : String} {i : Interpreter Rehearsal.Bare Unit}
    (registered : (parkingBoard initial).interpreters.get? name = some i) : i = parkingInterpreter initial := by
  rw [← Table.mem_entries_iff, parkingBoard, List.mem_singleton] at registered
  exact (Prod.mk.inj registered).2

theorem parkingBoard_sound (initial : String)
    (resolved : Bindings.empty.resolve (parkingDefinition initial) = .ok (parkingInterpreter initial).machine) :
    (parkingBoard initial).Sound .json where
  operations := rfl
  lifetime := (by decide : (Config.ttl { entry := "demo" }).total ≤ MemoryStore.longestLifetime)
  resolved name i registered := ⟨_, _, parkingBoard_interpreters registered ▸ resolved⟩
  names _ _ _ := ⟨nofun, fun _ _ => nofun⟩

theorem neverParks_iff_parkingBoard :
    (parkingBoard "menu").NeverParks .json ∧ ¬ (parkingBoard "retry").NeverParks .json := by
  have menu := Switchboard.neverParks_iff (parkingBoard_sound "menu" rfl) nofun
  have retry := Switchboard.neverParks_iff (parkingBoard_sound "retry" rfl) nofun
  constructor
  · refine menu.2 fun name i registered => ?_
    cases parkingBoard_interpreters registered
    exact ⟨_, rfl, rfl, rfl, rfl⟩
  · intro never
    obtain ⟨state, found, -, quiet, -⟩ := retry.1 never "demo" _ rfl
    cases found
    cases quiet

end DialMenu
