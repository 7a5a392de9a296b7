import DialMenu.Proofs.Menus.PinTurn

/-!
Success means everywhere. A change comes to its success exactly if the PIN opens the account, what is to be changed was
entered, and every write is accepted; then the backends and the context agree on it. Any other turn leaves the user and
what was entered as they are in the context.
-/

namespace DialMenu.Menus

section Writes

variable {phone guardian ward language : String}

theorem AccountStore.updateLanguage_ok_iff {store : AccountStore} :
    (store.updateLanguage phone language).1 = .ok () ↔
      store.down = false ∧ (store.accounts.get? phone).isSome = true := by
  unfold updateLanguage
  cases store.down <;> cases store.accounts.get? phone <;> simp

theorem AccountStore.addGuardian_ok_iff {store : AccountStore} :
    (store.addGuardian guardian ward).1 = .ok () ↔ store.down = false := by
  unfold addGuardian
  cases store.down <;> simp

theorem AccountStore.language?_updateLanguage {store : AccountStore}
    (accepted : (store.updateLanguage phone language).1 = .ok ()) :
    (store.updateLanguage phone language).2.language? phone = some language := by
  obtain ⟨up, known⟩ := updateLanguage_ok_iff.1 accepted
  obtain ⟨record, found⟩ := Option.isSome_iff_exists.1 known
  simp [updateLanguage, language?, up, found]

theorem AccountStore.mem_wardsOf_addGuardian {store : AccountStore}
    (accepted : (store.addGuardian guardian ward).1 = .ok ()) :
    ward ∈ (store.addGuardian guardian ward).2.wardsOf guardian := by
  rw [wardsOf_addGuardian, if_pos ⟨rfl, addGuardian_ok_iff.1 accepted⟩]
  exact List.mem_append_right _ (List.mem_singleton_self ward)

theorem AccountCache.setLanguage_ok_iff {cache : AccountCache} :
    (cache.setLanguage phone language).1 = .ok () ↔ cache.down = false := by
  unfold setLanguage
  cases cache.down <;> simp

theorem AccountCache.addGuardian_ok_iff {cache : AccountCache} :
    (cache.addGuardian ward guardian).1 = .ok () ↔ cache.down = false := by
  unfold addGuardian
  cases cache.down <;> simp

theorem AccountCache.mem_guardiansOf_addGuardian {cache : AccountCache}
    (accepted : (cache.addGuardian ward guardian).1 = .ok ()) :
    guardian ∈ (cache.addGuardian ward guardian).2.guardiansOf ward := by
  rw [guardiansOf_addGuardian]
  split
  · exact List.mem_append_right _ (List.mem_singleton_self guardian)
  · rename_i listed
    exact Decidable.byContradiction fun missing => listed ⟨rfl, addGuardian_ok_iff.1 accepted, missing⟩

/-- A write to both is accepted if both halves are. -/
theorem Backends.writeBoth_ok_iff {durable : AccountStore → Except BackendError Unit × AccountStore}
    {cached : AccountCache → Except BackendError Unit × AccountCache} {b : Backends} :
    (b.writeBoth durable cached).1 = .ok () ↔ (durable b.accounts).1 = .ok () ∧ (cached b.cache).1 = .ok () := by
  unfold writeBoth
  cases first : (durable b.accounts).1 <;> simp [first]

end Writes

/-- A field has its value from the edits if they set it, and the value before if they do not. -/
def Profile.Takes {α : Type} (field : Profile → Option α) (before edits after : Profile) : Prop :=
  (∀ value, field edits = some value → field after = some value) ∧ (field edits = none → field after = field before)

/-- Every field that is edited has its new value, and every other is unchanged. -/
structure Profile.Edited (before edits after : Profile) : Prop where
  givenNames : Takes Profile.givenNames before edits after
  familyName : Takes Profile.familyName before edits after
  gender : Takes Profile.gender before edits after
  yearOfBirth : Takes Profile.yearOfBirth before edits after
  location : Takes Profile.location before edits after

theorem Profile.edited_merged (before edits : Profile) : before.Edited edits (before.merged edits) := by
  have takes {α : Type} (field : Profile → Option α)
      (merges : field (before.merged edits) = (field edits).or (field before)) :
      Takes field before edits (before.merged edits) :=
    ⟨fun value set => by rw [merges, set, Option.some_or], fun kept => by rw [merges, kept, Option.none_or]⟩
  exact ⟨takes _ rfl, takes _ rfl, takes _ rfl, takes _ rfl, takes _ rfl⟩

theorem ProfileStore.edited_upsert {store : ProfileStore} {address : String} {update : Profile}
    (accepted : (store.upsert address update).1 = .ok ()) :
    ∃ stored, (store.upsert address update).2.profiles.get? address = some stored ∧
      ((store.profiles.get? address).getD {}).Edited update stored := by
  unfold upsert at accepted ⊢
  cases down : store.down with
  | true => simp [down] at accepted
  | false =>
    cases store.profiles.get? address with
    | none =>
      have fresh := Profile.edited_merged {} update
      have kept : Profile.merged {} update = update := by simp [Profile.merged]
      rw [kept] at fresh
      exact ⟨update, by simp, fresh⟩
    | some stored => exact ⟨stored.merged update, by simp, stored.edited_merged update⟩

/-- What decides whether a write for the context is accepted is the same in both. -/
structure Backends.AcceptsLike (s : Subscriber) (b b' : Backends) : Prop where
  down : b'.accounts.down = b.accounts.down
  known : (b'.accounts.accounts.get? s.phone).isSome = (b.accounts.accounts.get? s.phone).isSome
  profiles : b'.profiles = b.profiles
  cache : b'.cache = b.cache

/-- The PIN check moves nothing that decides whether a write is accepted. -/
theorem acceptsLike_validatePin (s : Subscriber) (pin : String) (b : Backends) :
    Backends.AcceptsLike s b (validatePin s pin b).2 := by
  rcases validatePin_env s pin b with same | judged
  · rw [same]
    exact ⟨rfl, rfl, rfl, rfl⟩
  · rw [judged]
    refine ⟨b.accounts.down_perform (.verifyPin s.phone pin), ?_, rfl, rfl⟩
    refine (congrArg Option.isSome (b.accounts.get?_perform (.verifyPin s.phone pin) s.phone)).trans ?_
    dsimp only
    split
    · exact Option.isSome_map
    · rfl

/-- The changes that a user can make. -/
inductive Change where
  | language
  | guardian
  | profile
deriving DecidableEq

namespace Change

def menu : Change → Menu
  | language => .languages
  | guardian => .guardians
  | profile => .profile

def sequel : Change → Sequel
  | language => .language
  | guardian => .guardian
  | profile => .profileChange

/-- What is to be written was entered, and every write is accepted. -/
def Ready (s : Subscriber) (b : Backends) : Change → Prop
  | language => ∃ language, s.pending.language = some language ∧
      (b.accounts.updateLanguage s.phone language).1 = .ok () ∧ (b.cache.setLanguage s.phone language).1 = .ok ()
  | guardian => ∃ guardian, s.pending.guardian = some guardian ∧
      (b.accounts.addGuardian guardian s.phone).1 = .ok () ∧ (b.cache.addGuardian s.phone guardian).1 = .ok ()
  | profile => (b.profiles.upsert s.user.account.address s.pending.profile).1 = .ok ()

/-- The backends and the context agree on the change of `s`, which the backends `b` met. -/
def Agrees (s : Subscriber) (b : Backends) (context : Subscriber) (left : Backends) : Change → Prop
  | language => ∃ language, s.pending.language = some language ∧
      left.accounts.language? s.phone = some language ∧ left.cache.language? s.phone = some language ∧
      context.user.account.language = language
  | guardian => ∃ guardian, s.pending.guardian = some guardian ∧
      s.phone ∈ left.accounts.wardsOf guardian ∧ guardian ∈ left.cache.guardiansOf s.phone ∧
      context.user.guardians = s.user.guardians ++ [guardian] ∧ context.pending.guardian = none
  | profile =>
      (∃ stored, left.profiles.profiles.get? s.user.account.address = some stored ∧
        ((b.profiles.profiles.get? s.user.account.address).getD {}).Edited s.pending.profile stored) ∧
      (∃ shown, context.user.profile? = some shown ∧
        (s.user.profile?.getD {}).Edited s.pending.profile shown) ∧
      context.pending.profile = {}

theorem mem_sequels (change : Change) : change.sequel ∈ change.menu.sequels := by
  cases change with
  | language | guardian | profile => exact List.mem_cons_self

variable {s : Subscriber} {b b' : Backends}

theorem ready_congr (change : Change) (like : Backends.AcceptsLike s b b') :
    change.Ready s b' ↔ change.Ready s b := by
  cases change <;> simp [Ready, AccountStore.updateLanguage_ok_iff, AccountStore.addGuardian_ok_iff, like.down,
    like.known, like.profiles, like.cache]

/-- The work of a change is done exactly if the change is ready. -/
theorem work_ok_iff (change : Change) :
    (∃ value, (change.sequel.protection.work s b).1 = .ok value) ↔ change.Ready s b := by
  cases change with
  | language =>
    change (∃ value, (Languages.changeLanguage s b).1 = .ok value) ↔ _
    unfold Languages.changeLanguage
    cases selected : s.pending.language with
    | none => simp [Ready, selected]
    | some language =>
      simp only [Ready, selected, Option.some_inj, exists_eq_left', ← Backends.writeBoth_ok_iff]
      change _ ↔ (b.updateLanguage s.phone language).1 = .ok ()
      rcases b.updateLanguage s.phone language with ⟨_ | _, _⟩ <;> simp
  | guardian =>
    change (∃ value, (Guardians.addGuardian s b).1 = .ok value) ↔ _
    unfold Guardians.addGuardian
    cases entered : s.pending.guardian with
    | none => simp [Ready, entered]
    | some guardian =>
      simp only [Ready, entered, Option.some_inj, exists_eq_left', ← Backends.writeBoth_ok_iff]
      change _ ↔ (b.storeGuardian guardian s.phone).1 = .ok ()
      rcases b.storeGuardian guardian s.phone with ⟨_ | _, _⟩ <;> simp
  | profile =>
    change (∃ value, (ProfileMenu.changeProfile s b).1 = .ok value) ↔ (b.upsertProfile _ _).1 = .ok ()
    unfold ProfileMenu.changeProfile
    rcases b.upsertProfile s.user.account.address s.pending.profile with ⟨_ | _, _⟩ <;> simp

/-- Once its work is done, and what it did is taken over, everybody agrees on the change. -/
theorem agrees (change : Change) (like : Backends.AcceptsLike s b b') (ready : change.Ready s b) (value : Value) :
    change.Agrees s b (change.sequel.confirmation.run s (Sequel.answered value))
      (change.sequel.protection.work s b').2 := by
  rw [← change.ready_congr like] at ready
  cases change with
  | language =>
    obtain ⟨language, selected, durable, cached⟩ := ready
    have left : (Languages.changeLanguage s b').2 = (b'.updateLanguage s.phone language).2 := by
      rw [Languages.backends_changeLanguage, selected]
    have shown : Languages.saveAccountLanguage s (Sequel.answered value) =
        { s with user.account.language := language } := by
      rw [Languages.saveAccountLanguage, selected]
    refine ⟨language, selected, ?_, ?_, ?_⟩
    · exact (congrArg (·.accounts.language? s.phone) left).trans (AccountStore.language?_updateLanguage durable)
    · refine (congrArg (·.cache.language? s.phone) left).trans ?_
      exact (AccountCache.language?_setLanguage _ _ _ _).trans (if_pos ⟨rfl, AccountCache.setLanguage_ok_iff.1 cached⟩)
    · exact congrArg (·.user.account.language) shown
  | guardian =>
    obtain ⟨guardian, entered, durable, cached⟩ := ready
    have left : (Guardians.addGuardian s b').2 = (b'.storeGuardian guardian s.phone).2 := by
      rw [Guardians.backends_addGuardian, entered]
    have shown : Guardians.recordGuardian s (Sequel.answered value) =
        { s with pending.guardian := none, user.guardians := s.user.guardians ++ [guardian] } := by
      rw [Guardians.recordGuardian, entered]
    refine ⟨guardian, entered, ?_, ?_, ?_, ?_⟩
    · exact congrArg (·.accounts.wardsOf guardian) left ▸ AccountStore.mem_wardsOf_addGuardian durable
    · exact congrArg (·.cache.guardiansOf s.phone) left ▸ AccountCache.mem_guardiansOf_addGuardian cached
    · exact congrArg (·.user.guardians) shown
    · exact congrArg (·.pending.guardian) shown
  | profile =>
    have left : (ProfileMenu.changeProfile s b').2 = _ := ProfileMenu.backends_changeProfile s b'
    obtain ⟨stored, there, edited⟩ := ProfileStore.edited_upsert ready
    rw [like.profiles] at edited
    refine ⟨⟨stored, ?_, edited⟩, ⟨_, rfl, ?_⟩, rfl⟩
    · exact (congrArg (·.profiles.profiles.get? s.user.account.address) left).trans there
    · have before : s.user.profile?.getD {} = (s.user.identity.getD {}).profile := by
        unfold User.profile?
        cases s.user.identity <;> rfl
      rw [before]
      exact Profile.edited_merged _ _

end Change

namespace Sequel

variable {sequel : Sequel} {now : Instant} {s : Subscriber} {failure : Failure} {b : Backends}

/-- A rejection leaves the user and what was entered as they are. -/
theorem context_rejected :
    (sequel.rejected now s failure b).context.user = s.user ∧
      (sequel.rejected now s failure b).context.pending = s.pending := by
  have noted (rejection : Rejection) : (sequel.note failure s rejection).user = s.user ∧
      (sequel.note failure s rejection).pending = s.pending := by
    unfold note
    split <;> exact ⟨rfl, rfl⟩
  unfold rejected
  split
  · exact ⟨rfl, rfl⟩
  · exact noted .wrongPin
  · exact noted _

theorem env_rejected : (sequel.rejected now s failure b).env = b := by
  unfold rejected
  split <;> rfl

theorem state_rejected : (sequel.rejected now s failure b).state ∈
    [sequel.protection.call, sequel.protection.entry, "accountBlocked", sequel.failure] := by
  unfold rejected
  split
  · simp
  · simp
  · rename_i rejection other _
    cases rejection with
    | blocked | failed => simp [target]
    | wrongPin => exact absurd rfl other

end Sequel

/-- The check passes exactly if the PIN opens the account. -/
theorem validatePin_ok_iff {s : Subscriber} {pin : String} {b : Backends} :
    (validatePin s pin b).1 = .ok () ↔ Opens s pin b := by
  constructor
  · intro passes
    have verdict := verdict_validatePin s pin b
    rw [passes] at verdict
    cases verdict with
    | opened opens => exact opens
  · rintro ⟨up, active, record, found, free, right⟩
    simp [validatePin, Backends.verifyPin, AccountStore.verifyPin, AccountRecord.judge, active, up, found, free, right]

namespace Change

variable {s : Subscriber} {event : Event} {b : Backends}

theorem withPin_ok_iff (change : Change) :
    (∃ value, (withPin change.sequel.protection.work s event b).result = .ok value) ↔
      Opens s event.input b ∧ change.Ready s b := by
  rw [← validatePin_ok_iff]
  cases checked : (validatePin s event.input b).1 with
  | error err => simp [withPin_of_error checked]
  | ok _ =>
    rw [withPin_of_ok checked, ← change.ready_congr (acceptsLike_validatePin s event.input b)]
    exact change.work_ok_iff.trans (and_iff_right rfl).symm

section Feedback

variable (change : Change) (tag : Option String) (s : Subscriber) (pin : String) (b left : Backends)
  (context : Subscriber)

theorem opens_setFeedback : Opens (Context.setFeedback tag s) pin b ↔ Opens s pin b :=
  ⟨fun ⟨up, active, account⟩ => ⟨up, active, account⟩, fun ⟨up, active, account⟩ => ⟨up, active, account⟩⟩

theorem ready_setFeedback : change.Ready (Context.setFeedback tag s) b ↔ change.Ready s b := by
  cases change <;> exact Iff.rfl

theorem agrees_setFeedback :
    change.Agrees (Context.setFeedback tag s) b context left ↔ change.Agrees s b context left := by
  cases change <;> exact Iff.rfl

end Feedback

theorem success_apart (change : Change) : change.sequel.success ∉
    [change.sequel.protection.call, change.sequel.protection.entry, "accountBlocked", change.sequel.failure] := by
  cases change <;> decide

/-- A keystroke in the PIN entry of a change comes to the success exactly if the PIN opens the account, what is to be
changed was entered, and every write is accepted. Then the backends and the context agree on the change; otherwise the
context keeps the user and what was entered. -/
theorem success_iff (year : Int) (change : Change) : ∃ machine, change.menu.machine year = .ok machine ∧
    ∀ (classify : ServiceError → Failure) (now : Instant) (s : Subscriber) (pin : String) (b : Backends),
      let rest := Interpreter.step { machine, classify } now change.sequel.protection.entry s
        { kind := .transit, input := pin } b
      (rest.state = change.sequel.success ↔ Opens s pin b ∧ change.Ready s b) ∧
        (rest.state = change.sequel.success → change.Agrees s b rest.context rest.env) ∧
        (rest.state ≠ change.sequel.success → rest.context.user = s.user ∧ rest.context.pending = s.pending) := by
  obtain ⟨machine, made⟩ := change.menu.exists_machine year
  refine ⟨machine, made, fun classify now s pin b => ?_⟩
  intro rest
  let event : Event := { kind := .transit, input := pin }
  let cleared : Subscriber := Context.setFeedback none s
  have turn : rest = change.menu.pinTurn change.sequel classify now s event b :=
    Menu.step_pin made change.mem_sequels classify now s rfl b
  have ready : (∃ value, (withPin change.sequel.protection.work cleared event b).result = .ok value) ↔
      Opens s pin b ∧ change.Ready s b := by
    rw [change.withPin_ok_iff, opens_setFeedback, ready_setFeedback]
  have apart := change.success_apart
  rw [turn, Menu.pinTurn]
  by_cases stops : change.menu.asksStatus = true ∧ isBlocked s event = true
  · rw [if_pos stops]
    have elsewhere : "accountBlocked" ≠ change.sequel.success := fun same => apart (by simp [← same])
    have closed : ¬ (Opens s pin b ∧ change.Ready s b) := by
      rintro ⟨opens, -⟩
      have blocked := stops.2
      simp [isBlocked, event, Event.failure, opens.active] at blocked
    exact ⟨iff_of_false elsewhere closed, fun same => absurd same elsewhere, fun _ => ⟨rfl, rfl⟩⟩
  · rw [if_neg stops]
    cases answered : (withPin change.sequel.protection.work cleared event b).result with
    | ok value =>
      obtain ⟨opens, able⟩ := ready.1 ⟨value, answered⟩
      have agrees := change.agrees (acceptsLike_validatePin cleared pin b)
        ((change.ready_setFeedback none s b).2 able) value
      have left : withPin change.sequel.protection.work cleared event b = _ :=
        withPin_of_ok (validatePin_ok_iff.2 ((opens_setFeedback none s pin b).2 opens))
      rw [Sequel.rest, answered, left]
      refine ⟨iff_of_true rfl ⟨opens, able⟩, fun _ => ?_, fun other => absurd rfl other⟩
      exact (change.agrees_setFeedback none s b _ _).1 agrees
    | error err =>
      have elsewhere : (change.sequel.rest now cleared classify
          (withPin change.sequel.protection.work cleared event b)).state ≠ change.sequel.success := by
        rw [Sequel.rest, answered]
        exact fun same => apart (same ▸ Sequel.state_rejected)
      have closed : ¬ (Opens s pin b ∧ change.Ready s b) := by
        intro able
        obtain ⟨value, done⟩ := ready.2 able
        cases done.symm.trans answered
      refine ⟨iff_of_false elsewhere closed, fun same => absurd same elsewhere, fun _ => ?_⟩
      rw [Sequel.rest, answered]
      exact Sequel.context_rejected

/-- A user who selected Swahili, and entered a guardian and a new location. -/
def moving : Subscriber where
  user := { account := { phone := "+254700000001", address := "addr-1", language := "eng" } }
  pending := {
    language := some "swa"
    profile := { location := some "Nairobi" }
    guardian := some "+254700000002" }

def movingBackends : Backends where
  accounts := AccountStore.insert {} "+254700000001" "1234" "eng"
  profiles := { profiles := .ofList [("addr-1", { givenNames := some "Asha", location := some "Mombasa" })] }

/-- With the PIN 1234 the change succeeds, and all agree on it. In the outage it does not, and the user stays. -/
def SucceedsUnless (change : Change) (outage : Backends) : Prop :=
  ∃ machine, change.menu.machine 2024 = .ok machine ∧
    let turn (b : Backends) := Interpreter.step { machine } .epoch change.sequel.protection.entry moving
      { kind := .transit, input := "1234" } b
    ((turn movingBackends).state = change.sequel.success ∧
      change.Agrees moving movingBackends (turn movingBackends).context (turn movingBackends).env) ∧
    (turn outage).state ≠ change.sequel.success ∧ (turn outage).context.user = moving.user

theorem success_iff_moving :
    SucceedsUnless .language { movingBackends with cache.down := true } ∧
      SucceedsUnless .guardian { movingBackends with cache.down := true } ∧
      SucceedsUnless .profile { movingBackends with profiles.down := true } := by
  have opens : Opens moving "1234" movingBackends := ⟨rfl, rfl, _, rfl, rfl, rfl⟩
  have moves (change : Change) (outage : Backends) (accepted : change.Ready moving movingBackends)
      (refused : ¬ change.Ready moving outage) : SucceedsUnless change outage := by
    obtain ⟨machine, made, turns⟩ := success_iff 2024 change
    refine ⟨machine, made, ?_⟩
    intro turn
    obtain ⟨succeeds, agrees, -⟩ := turns ServiceError.classify .epoch moving "1234" movingBackends
    obtain ⟨fails, -, kept⟩ := turns ServiceError.classify .epoch moving "1234" outage
    have success := succeeds.2 ⟨opens, accepted⟩
    have failure := fails.not.2 fun able => refused able.2
    exact ⟨⟨success, agrees success⟩, failure, (kept failure).1⟩
  refine ⟨moves .language _ ⟨_, rfl, rfl, rfl⟩ ?_, moves .guardian _ ⟨_, rfl, rfl, rfl⟩ ?_, moves .profile _ rfl nofun⟩
  · rintro ⟨_, -, -, cached⟩
    cases cached
  · rintro ⟨_, -, -, cached⟩
    cases cached

end Change

end DialMenu.Menus
