import DialMenu.Proofs.Menus.PinTurn
import DialMenu.Proofs.Session.Conversation

/-!
The PIN that is entered tells nothing but whether it is right. Two turns that differ in the PIN and in the one on
record, but not in whether they match, come to the same rest, and leave backends that differ in that record's PIN at
most. The services behind the check do not see the PIN: they commute with erasing it.
-/

namespace DialMenu

variable {C σ τ : Type}

/-- The answer with another environment. -/
def Answer.mapEnv (f : σ → τ) (answer : Answer σ) : Answer τ :=
  { result := answer.result, env := f answer.env, elapsed := answer.elapsed }

/-- The rest with another environment. -/
def Rest.mapEnv (f : σ → τ) (rest : Rest C σ) : Rest C τ :=
  { state := rest.state, context := rest.context, disposition := rest.disposition, trace := rest.trace
    env := f rest.env }

theorem Rest.gist_eq_of_mapEnv_eq {f : σ → τ} {rest rest' : Rest C σ} (same : rest.mapEnv f = rest'.mapEnv f) :
    rest.gist = rest'.gist ∧ f rest.env = f rest'.env :=
  ⟨(congrArg Rest.gist same :), (congrArg Rest.env same :)⟩

/-- Two requests whose turns differ in the environment alone are answered and stored alike. -/
theorem Switchboard.handle_alike [Context C] [Inhabited C] {S : Type} {board : Switchboard C σ S}
    {i : Interpreter C σ} {stamp : Stamp} {sessionId : String} {session : Session C} {event event' : Event}
    {store loaded : S} {env env' : σ} {f : σ → τ}
    (found : board.loadOr stamp sessionId default store = (.ok session, loaded))
    (serves : board.interpreter session.machine = .ok i)
    (same : (i.step stamp.now session.state session.context event env).mapEnv f =
      (i.step stamp.now session.state session.context event' env').mapEnv f) :
    let answer := board.handle stamp sessionId event store env
    let answer' := board.handle stamp sessionId event' store env'
    answer.1 = answer'.1 ∧ answer.2.1 = answer'.2.1 ∧ f answer.2.2 = f answer'.2.2 := by
  have state := (congrArg Rest.state same :)
  have context := (congrArg Rest.context same :)
  have disposition := (congrArg Rest.disposition same :)
  have trace := (congrArg Rest.trace same :)
  have left := (congrArg Rest.env same :)
  simp only [Rest.mapEnv] at state context disposition trace left
  simp only [handle, found, advance, serves, state, context, disposition, trace, left, and_self]

namespace Menus

def AccountRecord.withoutPin (record : AccountRecord) : AccountRecord := { record with pin := "" }

/-- The record of `other` with the PIN of one account erased. -/
def AccountRecord.erasedFor (phone other : String) (record : AccountRecord) : AccountRecord :=
  if other = phone then record.withoutPin else record

/-- The store with the PIN of one account erased. -/
def AccountStore.withoutPin (phone : String) (store : AccountStore) : AccountStore :=
  { store with accounts := store.accounts.mapValues (AccountRecord.erasedFor phone) }

def Backends.withoutPin (phone : String) (b : Backends) : Backends :=
  { b with accounts := b.accounts.withoutPin phone }

def AccountStore.pin? (store : AccountStore) (phone : String) : Option String :=
  (store.accounts.get? phone).map AccountRecord.pin

/-- The backends differ at most in the PIN of one account, and the one PIN is right exactly if the other is. -/
structure Indistinct (phone pin pin' : String) (b b' : Backends) : Prop where
  erased : b.withoutPin phone = b'.withoutPin phone
  right : b.accounts.pin? phone = some pin ↔ b'.accounts.pin? phone = some pin'

section Check

variable {phone pin pin' : String} {store store' : AccountStore} {record record' : AccountRecord}

/-- Records that differ in the PIN judge alike what is right for both or for neither. -/
theorem AccountRecord.judge_withoutPin (same : record.withoutPin = record'.withoutPin)
    (right : record.pin = pin ↔ record'.pin = pin') :
    (record.judge pin).1 = (record'.judge pin').1 ∧
      (record.judge pin).2.withoutPin = (record'.judge pin').2.withoutPin := by
  obtain ⟨recorded, language, attempts, blocked⟩ := record
  obtain ⟨recorded', language', attempts', blocked'⟩ := record'
  simp only [withoutPin, mk.injEq, true_and] at same
  obtain ⟨rfl, rfl, rfl⟩ := same
  simp only [judge, right]
  split
  · exact ⟨rfl, rfl⟩
  · split
    · exact ⟨rfl, rfl⟩
    · split <;> exact ⟨rfl, rfl⟩

theorem AccountStore.get?_withoutPin (store : AccountStore) (phone other : String) :
    (store.withoutPin phone).accounts.get? other = (store.accounts.get? other).map (.erasedFor phone other) :=
  Table.get?_mapValues _ _ _

theorem AccountStore.withoutPin_insert (store : AccountStore) (phone other : String) (record : AccountRecord) :
    withoutPin phone { store with accounts := store.accounts.insert other record } =
      { store.withoutPin phone with
        accounts := (store.withoutPin phone).accounts.insert other (record.erasedFor phone other) } := by
  simp [withoutPin, Table.mapValues_insert]

/-- Stores that differ in the PIN of an account answer alike a PIN that is right for both or for neither. -/
theorem AccountStore.verifyPin_withoutPin (same : store.withoutPin phone = store'.withoutPin phone)
    (right : store.pin? phone = some pin ↔ store'.pin? phone = some pin') :
    (store.verifyPin phone pin).1 = (store'.verifyPin phone pin').1 ∧
      (store.verifyPin phone pin).2.withoutPin phone = (store'.verifyPin phone pin').2.withoutPin phone := by
  have down : store.down = store'.down := (congrArg AccountStore.down same :)
  have here : AccountRecord.erasedFor phone phone = AccountRecord.withoutPin := funext fun _ => if_pos rfl
  have records : (store.accounts.get? phone).map AccountRecord.withoutPin =
      (store'.accounts.get? phone).map AccountRecord.withoutPin := by
    rw [← here, ← get?_withoutPin, same, get?_withoutPin]
  unfold verifyPin
  by_cases off : store'.down = true
  · rw [if_pos (down.trans off), if_pos off]
    exact ⟨rfl, same⟩
  · rw [if_neg (down ▸ off), if_neg off]
    cases found : store.accounts.get? phone with
    | none =>
      rw [found, Option.map_none, eq_comm, Option.map_eq_none_iff] at records
      rw [records]
      exact ⟨rfl, same⟩
    | some record =>
      rw [found, Option.map_some, eq_comm, Option.map_eq_some_iff] at records
      obtain ⟨record', found', alike⟩ := records
      simp only [pin?, found, found', Option.map_some, Option.some_inj] at right
      obtain ⟨check, left⟩ := AccountRecord.judge_withoutPin alike.symm right
      simp only [found']
      refine ⟨congrArg Except.ok check, ?_⟩
      rw [withoutPin_insert, withoutPin_insert, here, same, left]

variable {s : Subscriber} {b b' : Backends}

theorem validatePin_withoutPin (indistinct : Indistinct s.phone pin pin' b b') :
    (validatePin s pin b).1 = (validatePin s pin' b').1 ∧
      (validatePin s pin b).2.withoutPin s.phone = (validatePin s pin' b').2.withoutPin s.phone := by
  obtain ⟨erased, right⟩ := indistinct
  obtain ⟨check, left⟩ := AccountStore.verifyPin_withoutPin (congrArg Backends.accounts erased) right
  have profiles : b.profiles = b'.profiles := (congrArg Backends.profiles erased :)
  have cache : b.cache = b'.cache := (congrArg Backends.cache erased :)
  unfold validatePin
  split
  · exact ⟨rfl, erased⟩
  · simp only [Backends.verifyPin, Backends.withoutPin, check, left, profiles, cache, and_self]

end Check

/-- The work gives the same answer and writes the same with the PIN erased. -/
def PinBlind (work : Subscriber → Backends → Except ServiceError Value × Backends) : Prop :=
  ∀ s phone b, work s (b.withoutPin phone) = ((work s b).1, (work s b).2.withoutPin phone)

section Work

theorem AccountStore.updateLanguage_withoutPin (store : AccountStore) (phone other language : String) :
    (store.withoutPin phone).updateLanguage other language =
      ((store.updateLanguage other language).1, (store.updateLanguage other language).2.withoutPin phone) := by
  unfold updateLanguage
  by_cases off : store.down = true
  · rw [if_pos off, if_pos (show (store.withoutPin phone).down = true from off)]
  · rw [if_neg off, if_neg (show ¬ (store.withoutPin phone).down = true from off), get?_withoutPin]
    cases store.accounts.get? other with
    | none => rfl
    | some record =>
      have same : { record.erasedFor phone other with language } =
          AccountRecord.erasedFor phone other { record with language } := by
        unfold AccountRecord.erasedFor
        split <;> rfl
      simp only [Option.map_some, withoutPin_insert, same]

theorem AccountStore.addGuardian_withoutPin (store : AccountStore) (phone guardian ward : String) :
    (store.withoutPin phone).addGuardian guardian ward =
      ((store.addGuardian guardian ward).1, (store.addGuardian guardian ward).2.withoutPin phone) := by
  unfold addGuardian
  by_cases off : store.down = true
  · rw [if_pos off, if_pos (show (store.withoutPin phone).down = true from off)]
  · rw [if_neg off, if_neg (show ¬ (store.withoutPin phone).down = true from off)]
    rfl

/-- A write to both sees the PIN only if its durable half does. -/
theorem Backends.writeBoth_withoutPin {durable : AccountStore → Except BackendError Unit × AccountStore}
    {phone : String} (blind : ∀ store, durable (store.withoutPin phone) =
      ((durable store).1, (durable store).2.withoutPin phone))
    (cached : AccountCache → Except BackendError Unit × AccountCache) (b : Backends) :
    (b.withoutPin phone).writeBoth durable cached =
      ((b.writeBoth durable cached).1, (b.writeBoth durable cached).2.withoutPin phone) := by
  simp only [writeBoth, withoutPin, blind]

theorem pinBlind_changeLanguage : PinBlind Languages.changeLanguage := by
  intro s phone b
  unfold Languages.changeLanguage
  cases s.pending.language with
  | none => rfl
  | some language =>
    have both := Backends.writeBoth_withoutPin
      (fun store => store.updateLanguage_withoutPin phone s.phone language) (AccountCache.setLanguage s.phone language) b
    dsimp only [Backends.updateLanguage]
    rw [both]
    rcases b.writeBoth _ _ with ⟨_ | _, b'⟩ <;> rfl

theorem pinBlind_addGuardian : PinBlind Guardians.addGuardian := by
  intro s phone b
  unfold Guardians.addGuardian
  cases s.pending.guardian with
  | none => rfl
  | some guardian =>
    have both := Backends.writeBoth_withoutPin
      (fun store => store.addGuardian_withoutPin phone guardian s.phone) (AccountCache.addGuardian s.phone guardian) b
    dsimp only [Backends.storeGuardian]
    rw [both]
    rcases b.writeBoth _ _ with ⟨_ | _, b'⟩ <;> rfl

theorem pinBlind_changeProfile : PinBlind ProfileMenu.changeProfile := by
  intro s phone b
  have both : (b.withoutPin phone).upsertProfile s.user.account.address s.pending.profile =
      ((b.upsertProfile s.user.account.address s.pending.profile).1,
        (b.upsertProfile s.user.account.address s.pending.profile).2.withoutPin phone) := rfl
  unfold ProfileMenu.changeProfile
  rw [both]
  rcases b.upsertProfile s.user.account.address s.pending.profile with ⟨_ | _, b'⟩ <;> rfl

theorem pinBlind_loadProfile : PinBlind ProfileMenu.loadProfile := by
  intro s phone b
  have same : (b.withoutPin phone).profiles = b.profiles := rfl
  unfold ProfileMenu.loadProfile
  rw [same]
  cases b.profiles.profile? s.user.account.address <;> rfl

end Work

namespace Menu

/-- No work behind the check sees a PIN. -/
theorem pinBlind_protections (menu : Menu) : ∀ protection ∈ menu.protections, PinBlind protection.work := by
  cases menu with
  | languages => exact List.forall_mem_singleton.2 pinBlind_changeLanguage
  | profile => exact List.forall_mem_cons.2 ⟨pinBlind_changeProfile, List.forall_mem_singleton.2 pinBlind_loadProfile⟩
  | guardians => exact List.forall_mem_singleton.2 pinBlind_addGuardian

end Menu

section Turn

variable {s : Subscriber} {event : Event} {pin' : String} {b b' : Backends}

/-- A service whose work is blind tells of the PIN no more than whether it is right. -/
theorem withPin_withoutPin {work : Subscriber → Backends → Except ServiceError Value × Backends}
    (blind : PinBlind work) (indistinct : Indistinct s.phone event.input pin' b b') :
    (withPin work s event b).mapEnv (Backends.withoutPin s.phone) =
      (withPin work s { event with input := pin' } b').mapEnv (Backends.withoutPin s.phone) := by
  obtain ⟨check, left⟩ := validatePin_withoutPin indistinct
  cases checked : (validatePin s event.input b).1 with
  | error err =>
    rw [withPin_of_error checked, withPin_of_error (check.symm.trans checked), Answer.mapEnv, Answer.mapEnv, left]
  | ok _ =>
    have one := blind s s.phone (validatePin s event.input b).2
    have other := blind s s.phone (validatePin s pin' b').2
    rw [left, other, Prod.mk.injEq] at one
    rw [withPin_of_ok checked, withPin_of_ok (check.symm.trans checked), Answer.mapEnv, Answer.mapEnv, one.1, one.2]

theorem Sequel.mapEnv_rest (sequel : Sequel) (now : Instant) (s : Subscriber) (classify : ServiceError → Failure)
    (f : Backends → Backends) (answer : Answer Backends) :
    (sequel.rest now s classify answer).mapEnv f = sequel.rest now s classify (answer.mapEnv f) := by
  unfold rest Answer.mapEnv
  cases answer.result with
  | ok value => rfl
  | error err =>
    dsimp only
    unfold rejected
    split <;> rfl

namespace Menu

variable {year : Int} {menu : Menu} {sequel : Sequel}

theorem pinTurn_withoutPin (mem : sequel ∈ menu.sequels) (classify : ServiceError → Failure) (now : Instant)
    (indistinct : Indistinct s.phone event.input pin' b b') :
    (menu.pinTurn sequel classify now s event b).mapEnv (Backends.withoutPin s.phone) =
      (menu.pinTurn sequel classify now s { event with input := pin' } b').mapEnv (Backends.withoutPin s.phone) := by
  have blind := menu.pinBlind_protections _ (mem_protections mem)
  have answers : (withPin sequel.protection.work (Context.setFeedback none s) event b).mapEnv _ = _ :=
    withPin_withoutPin blind indistinct
  -- the status is looked for in the context and the outcome, which are those of both events
  have asks : isBlocked s { event with input := pin' } = isBlocked s event := rfl
  unfold pinTurn
  rw [asks]
  by_cases stops : menu.asksStatus = true ∧ isBlocked s event = true
  · rw [if_pos stops, if_pos stops, Rest.mapEnv, Rest.mapEnv, indistinct.erased]
  · rw [if_neg stops, if_neg stops]
    refine (sequel.mapEnv_rest ..).trans (Eq.trans ?_ (sequel.mapEnv_rest ..).symm)
    exact congrArg _ answers

/-- The PIN that is entered tells nothing but whether it is right: two turns from a PIN entry that differ in the PIN
and in the one on record, but not in whether they match, come to the same state, context, disposition and hops, and
leave backends that differ in that PIN on record at most. So the requests are answered alike, and store the same. -/
theorem pin_secret (year : Int) (menu : Menu) : ∃ machine, menu.machine year = .ok machine ∧
    ∀ (classify : ServiceError → Failure) (state : String) (s : Subscriber) (event : Event) (pin' : String)
      (b b' : Backends), event.kind = .transit → state ∈ menu.pinStates →
      Indistinct s.phone event.input pin' b b' →
      (∀ now now' : Instant,
        let rest := Interpreter.step { machine, classify } now state s event b
        let rest' := Interpreter.step { machine, classify } now' state s { event with input := pin' } b'
        rest.gist = rest'.gist ∧ rest.env.withoutPin s.phone = rest'.env.withoutPin s.phone) ∧
      ∀ (S : Type) (board : Switchboard Subscriber Backends S) (stamp : Stamp) (sessionId : String)
        (session : Session Subscriber) (store loaded : S),
        board.loadOr stamp sessionId default store = (.ok session, loaded) →
        board.interpreter session.machine = .ok { machine, classify } →
        session.state = state → session.context = s →
        let answer := board.handle stamp sessionId event store b
        let answer' := board.handle stamp sessionId { event with input := pin' } store b'
        answer.1 = answer'.1 ∧ answer.2.1 = answer'.2.1 ∧
          answer.2.2.withoutPin s.phone = answer'.2.2.withoutPin s.phone := by
  obtain ⟨machine, made⟩ := menu.exists_machine year
  refine ⟨machine, made, fun classify state s event pin' b b' forward gate indistinct => ?_⟩
  obtain ⟨protection, known, rfl⟩ := List.mem_map.1 gate
  obtain ⟨sequel, mem, rfl⟩ := exists_sequel known
  have alike (now : Instant) :
      (Interpreter.step { machine, classify } now sequel.protection.entry s event b).mapEnv
          (Backends.withoutPin s.phone) =
        (Interpreter.step { machine, classify } now sequel.protection.entry s { event with input := pin' } b').mapEnv
          (Backends.withoutPin s.phone) := by
    have forward' : { event with input := pin' }.kind = .transit := forward
    rw [step_pin made mem classify now s forward b, step_pin made mem classify now s forward' b']
    exact pinTurn_withoutPin mem classify now indistinct
  constructor
  · intro now now' rest rest'
    have same := Rest.gist_eq_of_mapEnv_eq (alike now)
    have later : rest' = _ := (Interpreter.retimed_step _ now' now _ _ _ _).symm
    rw [later, Rest.gist_retimed]
    exact same
  · rintro S board stamp sessionId session store loaded found serves here rfl
    exact Switchboard.handle_alike found serves (here ▸ alike stamp.now)

/-- A user who selected Swahili and has to confirm it. -/
def selecting : Subscriber :=
  { user := { account := { phone := "+254700000001", language := "eng" } }, pending := { language := some "swa" } }

/-- A store with room for one record. -/
def oneRecord : SessionStore (Option (Session Subscriber)) Subscriber where
  get _ _ record := (.ok record, record)
  set _ session _ _ := (.ok (), some session)
  delete _ _ := (.ok (), none)

theorem pin_secret_wrongPins : ∃ machine, Menu.languages.machine 2024 = .ok machine ∧
    let backends (pin : String) : Backends := { accounts := AccountStore.insert {} "+254700000001" pin "eng" }
    let event (pin : String) : Event := { kind := .transit, input := pin }
    let rest := Interpreter.step { machine } .epoch "enteringPin" selecting (event "0000") (backends "1234")
    let rest' := Interpreter.step { machine } .epoch "enteringPin" selecting (event "4321") (backends "5678")
    let board := Switchboard.register { store := oneRecord, config := {} } { machine }
    let record : Option (Session Subscriber) := some (.fresh default "tel" "languages" "enteringPin" selecting .zero)
    rest.state = "enteringPin" ∧ rest.env ≠ rest'.env ∧ rest.gist = rest'.gist ∧
      (board.handle default "tel" (event "0000") record (backends "1234")).2.1 =
        (board.handle default "tel" (event "4321") record (backends "5678")).2.1 := by
  obtain ⟨machine, made, secret⟩ := pin_secret 2024 .languages
  refine ⟨machine, made, ?_⟩
  intro backends event rest rest' board record
  have indistinct : Indistinct selecting.phone "0000" "4321" (backends "1234") (backends "5678") :=
    ⟨by decide +kernel, iff_of_false (by decide +kernel) (by decide +kernel)⟩
  obtain ⟨turns, requests⟩ := secret ServiceError.classify "enteringPin" selecting (event "0000") "4321" _ _ rfl
    (by decide) indistinct
  have differ : ∀ m, Menu.languages.machine 2024 = .ok m → m.id = "languages" ∧
      let rest := Interpreter.step { machine := m } .epoch "enteringPin" selecting (event "0000") (backends "1234")
      rest.state = "enteringPin" ∧
        rest.env ≠ (Interpreter.step { machine := m } .epoch "enteringPin" selecting (event "4321")
          (backends "5678")).env := by
    intro m same
    cases same
    decide +kernel
  obtain ⟨named, waits, apart⟩ := differ machine made
  have serves : board.interpreter "languages" = .ok { machine } := by
    simp [board, Switchboard.interpreter, Switchboard.register, named]
  exact ⟨waits, apart, (turns .epoch .epoch).1, (requests _ board default "tel" _ record record rfl serves rfl rfl).2.1⟩

end Menu

end Turn

end Menus

end DialMenu
