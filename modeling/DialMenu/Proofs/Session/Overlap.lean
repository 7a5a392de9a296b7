import DialMenu.Proofs.Session.Rush
import DialMenu.Proofs.Session.Traffic

/-!
Requests on one session id that overlap. The turn that is committed last wins as a whole: what is stored is that turn
and nothing of any other, and each turn goes on from what its own request had loaded.
-/

namespace DialMenu

variable {ι C σ : Type}

/-- What a request works with is of the conversation under the key. -/
def Phase.IsFor (key : String) : Phase C → Prop
  | .loaded session => session.key = key
  | .turned turn | .committed turn => turn.session.key = key
  | .arrived | .failed _ => True

/-- The record that the turn committed last leaves, or the given one if none was committed. -/
def Rush.winner [Encoded C] (rush : Rush ι C σ) (ttl : Duration) (initial : Option MemoryStore.Record) :
    Option MemoryStore.Record :=
  match rush.last with
  | none => initial
  | some (turn, time) =>
    if turn.isTerminal then none
    else some { bytes := turn.session.written rush.store.codec, expiresAt := time.addSaturating ttl }

namespace Switchboard

variable [Context C] [Inhabited C]

section Origin

variable [Encoded C] [DecidableEq ι]

/-- What a request loads: the conversation on record, or a new one if there is no record. -/
def Loads (board : Switchboard C σ MemoryStore) (stamp : Stamp) (sessionId : String) (store : MemoryStore)
    (session : Session C) : Prop :=
  (∃ record, store.records.get? (board.config.keyFor sessionId) = some record ∧
      Session.decode store.codec record.bytes = .ok session) ∨
    store.records.get? (board.config.keyFor sessionId) = none ∧
      board.fresh stamp sessionId board.config.entry default = .ok session

/-- No record has expired when a request loads it. -/
def Timely (board : Switchboard C σ MemoryStore) (sessionId : String) (events : ι → Event) (start : Rush ι C σ)
    (schedule : List (ι × Stamp)) : Prop :=
  ∀ before step after, schedule = before ++ step :: after →
    (board.run sessionId events before start).phase step.1 = .arrived →
    ∀ record,
      (board.run sessionId events before start).store.records.get? (board.config.keyFor sessionId) = some record →
      step.2.now < record.expiresAt

/-- Where a turn comes from. Its request loaded, and then advanced just what it had loaded, on the environment of that
moment; in between there may have been any moves of other requests. -/
def Stems (board : Switchboard C σ MemoryStore) (sessionId : String) (events : ι → Event) (start : Rush ι C σ)
    (schedule : List (ι × Stamp)) (client : ι) (turn : Turn C) : Prop :=
  ∃ before arrival between stamp after session,
    schedule = before ++ (client, arrival) :: between ++ (client, stamp) :: after ∧
    (∀ step ∈ before ++ between, step.1 ≠ client) ∧
    board.Loads arrival sessionId (board.run sessionId events before start).store session ∧
    (board.advance stamp.now session (events client)
      (board.run sessionId events (before ++ (client, arrival) :: between) start).env).1 = .ok turn

variable {board : Switchboard C σ MemoryStore} {sessionId : String} {events : ι → Event} {rush start : Rush ι C σ}
  {client : ι} {stamp : Stamp} {schedule : List (ι × Stamp)}

omit [Encoded C] in
theorem Timely.dropLast {step : ι × Stamp} (timely : board.Timely sessionId events start (schedule ++ [step])) :
    board.Timely sessionId events start schedule := by
  intro before other after same
  exact timely before other (after ++ [step]) (by rw [same]; simp)

omit [Encoded C] in
theorem Timely.append_singleton {step : ι × Stamp} (timely : board.Timely sessionId events start schedule)
    (live : (board.run sessionId events schedule start).phase step.1 = .arrived → ∀ record,
      (board.run sessionId events schedule start).store.records.get? (board.config.keyFor sessionId) = some record →
      step.2.now < record.expiresAt) : board.Timely sessionId events start (schedule ++ [step]) := by
  intro before other after same
  rcases List.eq_nil_or_concat after with rfl | ⟨after, last, rfl⟩
  · obtain ⟨rfl, one⟩ := List.append_inj' same rfl
    cases one
    exact live
  · rw [List.concat_eq_append, ← List.cons_append, ← List.append_assoc] at same
    obtain ⟨earlier, -⟩ := List.append_inj' same rfl
    exact timely before other after earlier

omit [Context C] in
/-- Loading a record in time leaves the store as it is. -/
theorem loads_of_loadOr (memory : board.store = MemoryStore.operationsIn (.encoded C)) {store : MemoryStore}
    (live : ∀ record, store.records.get? (board.config.keyFor sessionId) = some record → stamp.now < record.expiresAt) :
    (board.loadOr stamp sessionId default store).2 = store ∧
      ∀ session, (board.loadOr stamp sessionId default store).1 = .ok session →
        board.Loads stamp sessionId store session := by
  rw [loadOr_eq memory]
  cases found : store.records.get? (board.config.keyFor sessionId) with
  | none =>
    rw [MemoryStore.live?_of_get?_eq_none found]
    exact ⟨MemoryStore.without_of_get?_eq_none found, fun session made => .inr ⟨found, made⟩⟩
  | some record =>
    rw [MemoryStore.live?_eq_some_iff.2 ⟨found, live record found⟩]
    exact ⟨rfl, fun session read => .inl ⟨record, found, read⟩⟩

theorem exists_load (memory : board.store = MemoryStore.operationsIn (.encoded C))
    (arrived : start.phase client = .arrived) (timely : board.Timely sessionId events start schedule)
    {session : Session C} (loaded : (board.run sessionId events schedule start).phase client = .loaded session) :
    ∃ before arrival between, schedule = before ++ (client, arrival) :: between ∧
      (∀ step ∈ before ++ between, step.1 ≠ client) ∧
      board.Loads arrival sessionId (board.run sessionId events before start).store session := by
  induction schedule using List.reverseRecOn with
  | nil =>
    rw [run, List.foldl_nil, arrived] at loaded
    cases loaded
  | append_singleton schedule step ih =>
    obtain ⟨mover, stamp⟩ := step
    rw [run_append_singleton] at loaded
    by_cases own : client = mover
    · subst own
      have moves := moves_move board sessionId events (board.run sessionId events schedule start) client stamp
      generalize board.move sessionId events _ (client, stamp) = after at moves loaded
      cases moves with
      | load first result =>
        rw [Rush.enter_phase, if_pos rfl] at loaded
        cases loaded
        have live := timely schedule (client, stamp) [] rfl first
        refine ⟨schedule, stamp, [], rfl, ?_, (loads_of_loadOr memory live).2 _ (congrArg Prod.fst result)⟩
        rw [List.append_nil]
        exact ne_of_arrived first
      | committed phase | failed phase =>
        rw [phase] at loaded
        cases loaded
      | _ =>
        rw [Rush.enter_phase, if_pos rfl] at loaded
        cases loaded
    · rw [phase_move_of_ne own] at loaded
      obtain ⟨before, arrival, between, rfl, apart, loads⟩ := ih timely.dropLast loaded
      refine ⟨before, arrival, between ++ [(mover, stamp)], by simp, ?_, loads⟩
      intro other mem
      rw [← List.append_assoc] at mem
      rcases List.mem_append.1 mem with earlier | here
      · exact apart other earlier
      · cases List.mem_singleton.1 here
        exact Ne.symm own

/-- Every turn comes from what its own request loaded. -/
theorem stems_of_phase (memory : board.store = MemoryStore.operationsIn (.encoded C))
    (arrived : start.phase client = .arrived) (timely : board.Timely sessionId events start schedule) {turn : Turn C}
    (made : (board.run sessionId events schedule start).phase client = .turned turn ∨
      (board.run sessionId events schedule start).phase client = .committed turn) :
    board.Stems sessionId events start schedule client turn := by
  induction schedule using List.reverseRecOn with
  | nil =>
    rw [run, List.foldl_nil, arrived] at made
    rcases made with never | never <;> cases never
  | append_singleton schedule step ih =>
    -- The cut of the history at which a turn was made stays when the history goes on.
    have later (before : board.Stems sessionId events start schedule client turn) :
        board.Stems sessionId events start (schedule ++ [step]) client turn := by
      obtain ⟨before, arrival, between, stamp, after, session, rfl, apart, loads, advanced⟩ := before
      exact ⟨before, arrival, between, stamp, after ++ [step], session, by simp, apart, loads, advanced⟩
    obtain ⟨mover, stamp⟩ := step
    rw [run_append_singleton] at made
    by_cases own : client = mover
    · subst own
      have moves := moves_move board sessionId events (board.run sessionId events schedule start) client stamp
      generalize board.move sessionId events _ (client, stamp) = after at moves made
      cases moves with
      | advance phase advanced =>
        rw [Rush.enter_phase, if_pos rfl] at made
        obtain made | never := made
        · cases made
          obtain ⟨before, arrival, between, rfl, apart, loads⟩ := exists_load memory arrived timely.dropLast phase
          exact ⟨before, arrival, between, stamp, [], _, rfl, apart, loads, congrArg Prod.fst advanced⟩
        · cases never
      | commit phase committed =>
        rw [Rush.enter_phase, if_pos rfl] at made
        obtain never | made := made
        · cases never
        · cases made
          exact later (ih timely.dropLast (.inl phase))
      | committed phase =>
        exact later (ih timely.dropLast made)
      | failed phase =>
        exact later (ih timely.dropLast made)
      | _ =>
        rw [Rush.enter_phase, if_pos rfl] at made
        rcases made with never | never <;> cases never
    · rw [phase_move_of_ne own] at made
      exact later (ih timely.dropLast made)

/-- The key of the conversation on record, or of a new one if there is none to be read. -/
def home (board : Switchboard C σ MemoryStore) (sessionId : String) (store : MemoryStore) : String :=
  match store.records.get? (board.config.keyFor sessionId) with
  | none => board.config.keyFor sessionId
  | some record =>
    match (Session.decode store.codec record.bytes : Except SessionError (Session C)) with
    | .ok session => session.key
    | .error _ => board.config.keyFor sessionId

/-- The turn committed last has won, and all requests work with conversations of the same key. -/
structure Won (board : Switchboard C σ MemoryStore) (sessionId : String) (start rush : Rush ι C σ) : Prop where
  form : rush.store.codec = start.store.codec
  record : rush.store.records.get? (board.home sessionId start.store) =
    rush.winner board.config.ttl (start.store.records.get? (board.home sessionId start.store))
  elsewhere : ∀ other, other ≠ board.home sessionId start.store →
    rush.store.records.get? other = start.store.records.get? other
  phases : ∀ client, (rush.phase client).IsFor (board.home sessionId start.store)
  last : ∀ turn time, rush.last = some (turn, time) → ∃ client, rush.phase client = .committed turn

omit [Context C] [DecidableEq ι] in
theorem key_eq_home_of_loads {store : MemoryStore} {session : Session C}
    (loads : board.Loads stamp sessionId store session) : session.key = board.home sessionId store := by
  unfold home
  rcases loads with ⟨record, found, decoded⟩ | ⟨missing, made⟩
  · simp only [found, decoded]
  · obtain ⟨i, -, rfl⟩ := fresh_eq_ok_iff.1 made
    simp only [missing]
    rfl

omit [Context C] [DecidableEq ι] in
/-- What a request loads has the key of what the first of them loaded. -/
theorem Won.key_of_loads (won : board.Won sessionId start rush)
    (holds : start.store.codec.Holds (board.config.keyFor sessionId)) {session : Session C}
    (loads : board.Loads stamp sessionId rush.store session) : session.key = board.home sessionId start.store := by
  have asBefore (same : rush.store.records.get? (board.config.keyFor sessionId) =
      start.store.records.get? (board.config.keyFor sessionId)) : session.key = board.home sessionId start.store := by
    rw [Loads, won.form, same] at loads
    exact key_eq_home_of_loads loads
  by_cases here : board.home sessionId start.store = board.config.keyFor sessionId
  · have kept := won.record
    cases last : rush.last with
    | none =>
      simp only [Rush.winner, last, here] at kept
      exact asBefore kept
    | some entry =>
      obtain ⟨turn, time⟩ := entry
      obtain ⟨client, phase⟩ := won.last turn time last
      have key : turn.session.key = board.home sessionId start.store := by
        have own := won.phases client
        rwa [phase] at own
      simp only [Rush.winner, last, here] at kept
      rcases loads with ⟨record, found, decoded⟩ | ⟨-, made⟩
      · rw [kept] at found
        split at found
        · cases found
        · cases found
          rw [won.form] at decoded
          rw [Session.key_of_decode (key.trans here ▸ holds) decoded, key]
      · obtain ⟨i, -, rfl⟩ := fresh_eq_ok_iff.1 made
        exact here.symm
  -- The given record names another key, so no commit has touched it, and each request loads it again.
  · exact asBefore (won.elsewhere _ (Ne.symm here))

omit [Context C] [Inhabited C] in
/-- A request that goes on without a commit changes nothing of the outcome. -/
theorem Won.enter (won : board.Won sessionId start rush) (pending : ∀ turn, rush.phase client ≠ .committed turn)
    (phase : Phase C) (own : phase.IsFor (board.home sessionId start.store)) (env : σ) :
    board.Won sessionId start ({ rush with env }.enter client phase) where
  form := won.form
  record := won.record
  elsewhere := won.elsewhere
  phases other := by
    rw [Rush.enter_phase]
    split
    · exact own
    · exact won.phases other
  last turn time last := by
    obtain ⟨other, before⟩ := won.last turn time last
    have apart : other ≠ client := by
      rintro rfl
      exact pending turn before
    refine ⟨other, ?_⟩
    rw [Rush.enter_phase, if_neg apart]
    exact before

omit [Context C] [Inhabited C] in
/-- A commit replaces the outcome as a whole, whatever was stored when it came. -/
theorem Won.commit (memory : board.store = MemoryStore.operationsIn (.encoded C))
    (won : board.Won sessionId start rush) {turn : Turn C} (phase : rush.phase client = .turned turn)
    {store : MemoryStore} {now : Instant} (committed : board.commit now turn rush.store = (.ok (), store)) :
    board.Won sessionId start ({ rush with store, last := some (turn, now) }.enter client (.committed turn)) := by
  have key : turn.session.key = board.home sessionId start.store := by
    have own := won.phases client
    rwa [phase] at own
  have others : store.SameBut (board.home sessionId start.store) rush.store := by
    have same := sameBut_commit memory now turn rush.store
    rwa [committed, key] at same
  have stored := get?_of_commit memory committed
  rw [key] at stored
  refine ⟨others.codec.trans won.form, ?_, ?_, fun other => ?_, fun made time last => ?_⟩
  · rw [Rush.enter_store, stored, Rush.winner, Rush.enter_last]
    simp only [Rush.enter_store, others.codec]
  · intro other apart
    exact (others.get? other apart).trans (won.elsewhere other apart)
  · rw [Rush.enter_phase]
    split
    · exact key
    · exact won.phases other
  · cases last
    exact ⟨client, by rw [Rush.enter_phase, if_pos rfl]⟩

/-- Whoever goes on, the turn committed last has won. -/
theorem won_move (memory : board.store = MemoryStore.operationsIn (.encoded C))
    (won : board.Won sessionId start rush) (holds : start.store.codec.Holds (board.config.keyFor sessionId))
    (live : rush.phase client = .arrived → ∀ record,
      rush.store.records.get? (board.config.keyFor sessionId) = some record → stamp.now < record.expiresAt) :
    board.Won sessionId start (board.move sessionId events rush (client, stamp)) := by
  have moves := moves_move board sessionId events rush client stamp
  generalize board.move sessionId events rush (client, stamp) = after at moves ⊢
  have own := won.phases client
  cases moves with
  | load phase result =>
    obtain ⟨same, loads⟩ := loads_of_loadOr memory (live phase)
    rw [result] at same loads
    cases same
    exact won.enter (by simp [phase]) (.loaded _) (won.key_of_loads holds (loads _ rfl)) rush.env
  | loadFailed phase result =>
    obtain ⟨same, -⟩ := loads_of_loadOr memory (live phase)
    rw [result] at same
    cases same
    exact won.enter (by simp [phase]) (.failed _) trivial rush.env
  | advance phase advanced =>
    obtain ⟨i, -, place, -⟩ := advance_eq_ok_iff.1 advanced
    rw [phase] at own
    refine won.enter (by simp [phase]) (.turned _) ?_ _
    rw [Phase.IsFor, place]
    exact own
  | advanceFailed phase _ => exact won.enter (by simp [phase]) (.failed _) trivial _
  | commit phase committed => exact won.commit memory phase committed
  | commitFailed phase refused =>
    have same := commit_of_error memory (congrArg Prod.fst refused)
    rw [refused] at same
    cases same
    exact won.enter (by simp [phase]) (.failed _) trivial rush.env
  | committed _ | failed _ => exact won

theorem won_run (memory : board.store = MemoryStore.operationsIn (.encoded C))
    (won : board.Won sessionId start start) (holds : start.store.codec.Holds (board.config.keyFor sessionId))
    (timely : board.Timely sessionId events start schedule) :
    board.Won sessionId start (board.run sessionId events schedule start) := by
  induction schedule using List.reverseRecOn with
  | nil => exact won
  | append_singleton schedule step ih =>
    rw [run_append_singleton]
    exact won_move memory (ih timely.dropLast) holds (timely schedule step [] rfl)

end Origin

section Outcome

variable [Encoded C] [DecidableEq ι] {board : Switchboard C σ MemoryStore} {sessionId : String} {events : ι → Event}
  {start : Rush ι C σ} {client : ι} {schedule : List (ι × Stamp)}

omit [Context C] [DecidableEq ι] in
theorem current_of_loads {stamp : Stamp} {store : MemoryStore} {session : Session C}
    (loads : board.Loads stamp sessionId store session) : session.Current := by
  rcases loads with ⟨_, -, decoded⟩ | ⟨-, made⟩
  · exact Session.current_of_decode decoded
  · obtain ⟨_, -, rfl⟩ := fresh_eq_ok_iff.1 made
    exact Session.current_fresh ..

omit [Encoded C] [Inhabited C] [DecidableEq ι] in
theorem current_of_advance {stamp : Stamp} {session : Session C} {event : Event} {env env' : σ} {turn : Turn C}
    (current : session.Current) (advanced : board.advance stamp.now session event env = (.ok turn, env')) :
    turn.session.Current := by
  obtain ⟨_, -, place, -⟩ := advance_eq_ok_iff.1 advanced
  rw [place]
  exact current.advanced _ _ _ _

theorem Stems.current {turn : Turn C} (stems : board.Stems sessionId events start schedule client turn) :
    turn.session.Current := by
  obtain ⟨_, _, _, _, _, _, -, -, loads, advanced⟩ := stems
  exact current_of_advance (current_of_loads loads) (Prod.ext advanced rfl)

omit [Context C] [Inhabited C] [DecidableEq ι] in
theorem won_start (sessionId : String) (store : MemoryStore) (env : σ) :
    board.Won sessionId ({ store, env } : Rush ι C σ) { store, env } where
  form := rfl
  record := rfl
  elsewhere _ _ := rfl
  phases _ := trivial
  last _ _ never := nomatch never

/-- Requests on one session id, however their parts are mixed. Until a turn is committed the record is the one that was
given. From then on it is the turn committed last and nothing else: its conversation if it waits, and no record if it is
terminal. Each turn was made of what its own request had loaded. Requests that do not overlap are handled one after
another. -/
theorem last_commit_wins (memory : board.store = MemoryStore.operations C) (sessionId : String) (events : ι → Event)
    (store : MemoryStore) (env : σ) (holds : store.codec.Holds (board.config.keyFor sessionId)) :
    let start : Rush ι C σ := { store, env }
    let home := board.home sessionId store
    (∀ schedule, board.Timely sessionId events start schedule →
      let rush := board.run sessionId events schedule start
      rush.store.records.get? home = rush.winner board.config.ttl (store.records.get? home) ∧
      (∀ other, other ≠ home → rush.store.records.get? other = store.records.get? other) ∧
      (∀ turn time, rush.last = some (turn, time) →
        (∃ client, rush.phase client = .committed turn) ∧
        (turn.isTerminal = false → turn.session.FitsIn store.codec → ∀ now, now < time.addSaturating board.config.ttl →
          (board.store.get now home rush.store).1 = .ok (some turn.session))) ∧
      ∀ client turn, rush.phase client = .turned turn ∨ rush.phase client = .committed turn →
        turn.session.key = home ∧ board.Stems sessionId events start schedule client turn) ∧
    ∀ requests : List (Request ι), (requests.map Request.client).Nodup →
      board.run sessionId events (requests.flatMap Request.steps) start =
        requests.foldl (board.attend sessionId events) start := by
  intro start home
  rw [MemoryStore.operations_eq] at memory
  refine ⟨fun schedule timely => ?_, fun requests once => run_flatMap_steps once fun _ _ => rfl⟩
  intro rush
  have won : board.Won sessionId start rush := won_run memory (won_start sessionId store env) holds timely
  have turns (client : ι) (turn : Turn C)
      (made : rush.phase client = .turned turn ∨ rush.phase client = .committed turn) :
      turn.session.key = home ∧ board.Stems sessionId events start schedule client turn := by
    have own := won.phases client
    refine ⟨?_, stems_of_phase memory rfl timely made⟩
    rcases made with made | made
    all_goals rwa [made] at own
  refine ⟨won.record, won.elsewhere, fun turn time last => ?_, turns⟩
  obtain ⟨client, committed⟩ := won.last turn time last
  refine ⟨⟨client, committed⟩, fun waits fits now early => ?_⟩
  obtain ⟨key, stems⟩ := turns client turn (.inr committed)
  have record : rush.store.records.get? home =
      some ⟨turn.session.written store.codec, time.addSaturating board.config.ttl⟩ := by
    have kept := won.record
    rw [Rush.winner, last, won.form] at kept
    exact kept.trans (if_neg (by simp [waits]))
  rw [memory, MemoryStore.get_fst, MemoryStore.live?_eq_some_iff.2 ⟨record, early⟩, won.form]
  change some <$> Session.decode store.codec (turn.session.written store.codec) = _
  rw [Session.decode_written_of_fits fits stems.current]
  rfl

end Outcome

end Switchboard

/-- Two keystrokes on one session id, of which one is to end the conversation. -/
def rushEvents (leaving : Bool) : Event := { kind := .transit, input := if leaving then "0" else "7" }

/-- Both load before either commits, and the one that ends the conversation commits first. The other one commits after
it and stores the conversation again. -/
def rushSchedule : List (Bool × Stamp) :=
  [(true, default), (false, default), (true, default), (false, default), (true, default), (false, default)]

def rushStart : Rush Bool Rehearsal.Bare Nat where
  store := { codec := .binary }
  env := 0

theorem timely_rushSchedule : visitBoard.Timely "tel" rushEvents rushStart rushSchedule := by
  have nothing : visitBoard.Timely "tel" rushEvents rushStart [] := fun before _ _ never => by
    cases before <;> cases never
  -- Both load when there is no record, and none loads again.
  have loads : visitBoard.Timely "tel" rushEvents rushStart [(true, default), (false, default)] :=
    (nothing.append_singleton fun _ _ found => nomatch found).append_singleton fun _ _ found => nomatch found
  have goes {schedule : List (Bool × Stamp)} {step : Bool × Stamp}
      (timely : visitBoard.Timely "tel" rushEvents rushStart schedule) (moved : ∃ other ∈ schedule, other.1 = step.1) :
      visitBoard.Timely "tel" rushEvents rushStart (schedule ++ [step]) := by
    refine timely.append_singleton fun arrived => ?_
    obtain ⟨other, mem, same⟩ := moved
    exact absurd same (Switchboard.ne_of_arrived arrived other mem)
  exact goes (goes (goes (goes loads (by simp)) (by simp)) (by simp)) (by simp)

theorem last_commit_wins_rush :
    (visitBoard.run "tel" rushEvents (rushSchedule.take 5) rushStart).store.records.get? "ussd:session:tel" = none ∧
      ∃ leaving, ∃ turn : Turn Rehearsal.Bare, turn.session.context = { feedback := some "7" } ∧
        visitBoard.Stems "tel" rushEvents rushStart rushSchedule leaving turn ∧
        (visitBoard.store.get .epoch "ussd:session:tel"
          (visitBoard.run "tel" rushEvents rushSchedule rushStart).store).1 = .ok (some turn.session) := by
  refine ⟨by decide +kernel, ?_⟩
  have told : (visitBoard.run "tel" rushEvents rushSchedule rushStart).last.map (fun entry =>
      (entry.1.session.machine, entry.1.session.state, entry.1.session.context, entry.1.isTerminal, entry.2)) =
        some ("demo", "menu", { feedback := some "7" }, false, .epoch) := by
    decide +kernel
  have small : (Wire.ofString "ussd:session:tel").length < 18446744073709551616 := by decide +kernel
  have memory : visitBoard.store = MemoryStore.operations Rehearsal.Bare := rfl
  obtain ⟨-, -, last, turns⟩ := (Switchboard.last_commit_wins memory "tel" rushEvents rushStart.store rushStart.env
    fun _ => small).1 rushSchedule timely_rushSchedule
  obtain ⟨⟨turn, time⟩, committed, answer⟩ := Option.map_eq_some_iff.1 told
  simp only [Prod.mk.injEq] at answer
  obtain ⟨machine, state, context, waits, rfl⟩ := answer
  obtain ⟨⟨leaving, phase⟩, stored⟩ := last turn .epoch committed
  obtain ⟨key, stems⟩ := turns leaving turn (.inr phase)
  have fits : turn.session.FitsIn .binary := by
    rw [Session.FitsIn, key, machine, state, context]
    exact ⟨Rehearsal.Bare.faithful _, by decide +kernel⟩
  exact ⟨leaving, turn, context, stems, stored waits fits .epoch (by decide)⟩

end DialMenu
