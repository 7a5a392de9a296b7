import DialMenu.Proofs.Fold
import DialMenu.Proofs.Menus.PinCheck
import Mathlib.Data.List.Nodup

/-!
The writes that go to the account store and to the cache together, over a whole history of them in which either
backend may be down for any call. Nothing is rolled back and nothing else is lost: each backend holds what the calls
asked of it while it was up, whatever became of their other halves.
-/

namespace DialMenu.Menus

/-- A write that goes to the account store and to the cache together. -/
inductive JointWrite where
  | updateLanguage (phone language : String)
  | storeGuardian (guardian ward : String)
deriving DecidableEq

namespace JointWrite

/-- The language that the write gives the number. -/
def languageOf (phone : String) : JointWrite → Option String
  | updateLanguage other language => if other = phone then some language else none
  | storeGuardian _ _ => none

/-- The ward that the write gives the guardian. -/
def wardOf (guardian : String) : JointWrite → Option String
  | updateLanguage _ _ => none
  | storeGuardian other ward => if other = guardian then some ward else none

/-- The guardian that the write gives the ward. -/
def guardianOf (ward : String) : JointWrite → Option String
  | updateLanguage _ _ => none
  | storeGuardian guardian other => if other = ward then some guardian else none

theorem languageOf_eq_some_iff {write : JointWrite} {phone language : String} :
    write.languageOf phone = some language ↔ write = updateLanguage phone language := by
  cases write <;> simp [languageOf]

theorem wardOf_eq_some_iff {write : JointWrite} {guardian ward : String} :
    write.wardOf guardian = some ward ↔ write = storeGuardian guardian ward := by
  cases write <;> simp [wardOf]

theorem guardianOf_eq_some_iff {write : JointWrite} {guardian ward : String} :
    write.guardianOf ward = some guardian ↔ write = storeGuardian guardian ward := by
  cases write
  · simp [guardianOf]
  · simp [guardianOf, and_comm]

end JointWrite

/-- A joint write, with the outages at the time. -/
structure JointCall where
  write : JointWrite
  accountsDown : Bool := false
  cacheDown : Bool := false
deriving DecidableEq

namespace JointCall

/-- What the call asks for, as long as the account store is up. -/
def durable (asked : JointWrite → Option String) (call : JointCall) : Option String :=
  if call.accountsDown then none else asked call.write

/-- What the call asks for, as long as the cache is up. -/
def cached (asked : JointWrite → Option String) (call : JointCall) : Option String :=
  if call.cacheDown then none else asked call.write

theorem asked_of_durable {asked : JointWrite → Option String} {call : JointCall} {entry : String}
    (left : call.durable asked = some entry) : asked call.write = some entry := by
  unfold durable at left
  split at left
  · cases left
  · exact left

theorem asked_of_cached {asked : JointWrite → Option String} {call : JointCall} {entry : String}
    (left : call.cached asked = some entry) : asked call.write = some entry := by
  unfold cached at left
  split at left
  · cases left
  · exact left

/-- Why the account store refuses its half: it is down, or it does not know the number. -/
def durableError? (accounts : Table String AccountRecord) (call : JointCall) : Option BackendError :=
  if call.accountsDown then some (.unavailable "accounts")
  else
    match call.write with
    | .updateLanguage phone _ => if (accounts.get? phone).isSome then none else some (.notFound phone)
    | .storeGuardian _ _ => none

/-- Why the cache refuses its half: it is down, and nothing else. -/
def cachedError? (call : JointCall) : Option BackendError :=
  if call.cacheDown then some (.unavailable "cache") else none

/-- The answer to a call: both halves were accepted, or the error of the account store, or else that of the cache. -/
structure Answered (accounts : Table String AccountRecord) (call : JointCall) (answer : Except BackendError Unit) :
    Prop where
  ok : answer = .ok () ↔ call.durableError? accounts = none ∧ call.cachedError? = none
  durable : ∀ err, call.durableError? accounts = some err → answer = .error err
  cached : ∀ err, call.durableError? accounts = none → call.cachedError? = some err → answer = .error err

variable {accounts : Table String AccountRecord} {call : JointCall}

theorem durableError?_eq_none_iff : call.durableError? accounts = none ↔
    call.accountsDown = false ∧
      ∀ phone language, call.write = .updateLanguage phone language → (accounts.get? phone).isSome = true := by
  obtain ⟨write, accountsDown, cacheDown⟩ := call
  cases accountsDown with
  | true => simp [durableError?]
  | false =>
    cases write with
    | updateLanguage phone language =>
      cases known : (accounts.get? phone).isSome <;> simp [durableError?, known]
    | storeGuardian => simp [durableError?]

theorem cachedError?_eq_none_iff : call.cachedError? = none ↔ call.cacheDown = false := by
  simp [cachedError?]

theorem Answered.writeBoth {durable : AccountStore → Except BackendError Unit × AccountStore}
    {cached : AccountCache → Except BackendError Unit × AccountCache} {b : Backends}
    (first : (durable b.accounts).1 = (call.durableError? accounts).elim (.ok ()) .error)
    (second : (cached b.cache).1 = call.cachedError?.elim (.ok ()) .error) :
    call.Answered accounts (b.writeBoth durable cached).1 := by
  have whole : (b.writeBoth durable cached).1 =
      ((call.durableError? accounts).or call.cachedError?).elim (.ok ()) .error := by
    simp only [Backends.writeBoth, first, second]
    cases call.durableError? accounts <;> rfl
  rw [whole]
  constructor <;> cases call.durableError? accounts <;> cases call.cachedError? <;> simp

theorem accepted_of_answered {history : List JointCall} {answers : List (Except BackendError Unit)}
    (answered : List.Forall₂ (Answered accounts) history answers) (ok : ∀ answer ∈ answers, answer = .ok ()) :
    ∀ call ∈ history, call.durableError? accounts = none ∧ call.cachedError? = none := by
  induction answered with
  | nil => nofun
  | cons first _ ih =>
    obtain ⟨head, tail⟩ := List.forall_mem_cons.1 ok
    exact List.forall_mem_cons.2 ⟨first.ok.1 head, ih tail⟩

end JointCall

namespace Backends

/-- Backends whose account store has these accounts, and which hold nothing else. -/
def opened (accounts : Table String AccountRecord) : Backends := { accounts := { accounts } }

/-- Makes a joint call under its outages. -/
def perform (b : Backends) (call : JointCall) : Except BackendError Unit × Backends :=
  let b := { b with
    accounts := { b.accounts with down := call.accountsDown }
    cache := { b.cache with down := call.cacheDown } }
  match call.write with
  | .updateLanguage phone language => b.updateLanguage phone language
  | .storeGuardian guardian ward => b.storeGuardian guardian ward

/-- The backends after a history of joint calls. -/
def after (b : Backends) (history : List JointCall) : Backends :=
  history.foldl (fun b call => (b.perform call).2) b

/-- The answers to a history of joint calls. -/
def answers (b : Backends) : List JointCall → List (Except BackendError Unit)
  | [] => []
  | call :: rest => (b.perform call).1 :: (b.perform call).2.answers rest

section Step

variable (b : Backends) (call : JointCall)

/-- A call changes of an account the language at most. -/
theorem account_perform (phone : String) :
    (b.perform call).2.accounts.accounts.get? phone = (b.accounts.accounts.get? phone).map fun record =>
      { record with language := (call.durable (JointWrite.languageOf phone)).getD record.language } := by
  obtain ⟨write, accountsDown, cacheDown⟩ := call
  let store : AccountStore := { b.accounts with down := accountsDown }
  cases write with
  | updateLanguage other language =>
    refine (store.get?_perform (.updateLanguage other language) phone).trans ?_
    by_cases same : other = phone <;> cases accountsDown <;>
      simp [store, JointCall.durable, JointWrite.languageOf, same]
  | storeGuardian guardian ward =>
    refine (store.get?_perform (.addGuardian guardian ward) phone).trans ?_
    simp [store, JointCall.durable, JointWrite.languageOf]

theorem durableLanguage_perform (phone : String) :
    (b.perform call).2.accounts.language? phone = (b.accounts.language? phone).map fun before =>
      (call.durable (JointWrite.languageOf phone)).getD before := by
  rw [AccountStore.language?, account_perform, AccountStore.language?, Option.map_map, Option.map_map]
  rfl

theorem wardsOf_perform (guardian : String) :
    (b.perform call).2.accounts.wardsOf guardian =
      b.accounts.wardsOf guardian ++ (call.durable (JointWrite.wardOf guardian)).toList := by
  obtain ⟨write, accountsDown, cacheDown⟩ := call
  let store : AccountStore := { b.accounts with down := accountsDown }
  cases write with
  | updateLanguage phone language =>
    refine (congrArg (fun wards => (wards.get? guardian).getD []) (store.wards_updateLanguage phone language)).trans ?_
    simp [JointCall.durable, JointWrite.wardOf, AccountStore.wardsOf, store]
  | storeGuardian other ward =>
    refine (store.wardsOf_addGuardian other ward guardian).trans ?_
    by_cases same : other = guardian <;> cases accountsDown <;>
      simp [JointCall.durable, JointWrite.wardOf, AccountStore.wardsOf, store, same]

theorem language?_perform (phone : String) :
    (b.perform call).2.cache.language? phone =
      (call.cached (JointWrite.languageOf phone)).or (b.cache.language? phone) := by
  obtain ⟨write, accountsDown, cacheDown⟩ := call
  let cache : AccountCache := { b.cache with down := cacheDown }
  cases write with
  | updateLanguage other language =>
    refine (cache.language?_setLanguage other language phone).trans ?_
    by_cases same : other = phone <;> cases cacheDown <;>
      simp [JointCall.cached, JointWrite.languageOf, AccountCache.language?, cache, same]
  | storeGuardian guardian ward => cases cacheDown <;> rfl

theorem guardiansOf_perform (ward : String) :
    (b.perform call).2.cache.guardiansOf ward = b.cache.guardiansOf ward ++
      (call.cached (JointWrite.guardianOf ward)).toList.filter (· ∉ b.cache.guardiansOf ward) := by
  obtain ⟨write, accountsDown, cacheDown⟩ := call
  let cache : AccountCache := { b.cache with down := cacheDown }
  have listed : cache.guardiansOf ward = b.cache.guardiansOf ward := rfl
  cases write with
  | updateLanguage phone language => cases cacheDown <;> exact (List.append_nil _).symm
  | storeGuardian guardian other =>
    refine (cache.guardiansOf_addGuardian other guardian ward).trans ?_
    rw [listed]
    by_cases same : other = ward <;> by_cases known : guardian ∈ b.cache.guardiansOf ward <;> cases cacheDown <;>
      simp [JointCall.cached, JointWrite.guardianOf, cache, same, known]

theorem profiles_perform : (b.perform call).2.profiles = b.profiles := by
  obtain ⟨write, accountsDown, cacheDown⟩ := call
  cases write <;> rfl

/-- Each half is judged on its own, and an account is known to the end if it was known at the beginning. -/
theorem answered_perform {accounts : Table String AccountRecord}
    (known : ∀ phone, (b.accounts.accounts.get? phone).isSome = (accounts.get? phone).isSome) :
    call.Answered accounts (b.perform call).1 := by
  obtain ⟨write, accountsDown, cacheDown⟩ := call
  cases write with
  | updateLanguage phone language =>
    have kept := known phone
    refine JointCall.Answered.writeBoth ?_ ?_
    · cases accountsDown with
      | true => rfl
      | false =>
        cases found : b.accounts.accounts.get? phone <;>
          simp_all [AccountStore.updateLanguage, JointCall.durableError?]
    · cases cacheDown <;> rfl
  | storeGuardian guardian ward =>
    refine JointCall.Answered.writeBoth ?_ ?_
    · cases accountsDown <;> rfl
    · cases cacheDown <;> rfl

end Step

theorem answered_answers {accounts : Table String AccountRecord} {b : Backends}
    (known : ∀ phone, (b.accounts.accounts.get? phone).isSome = (accounts.get? phone).isSome)
    (history : List JointCall) : List.Forall₂ (JointCall.Answered accounts) history (b.answers history) := by
  induction history generalizing b with
  | nil => exact .nil
  | cons call rest ih =>
    refine .cons (answered_perform b call known) (ih fun phone => ?_)
    rw [account_perform, Option.isSome_map, known]

theorem after_concat (b : Backends) (history : List JointCall) (call : JointCall) :
    b.after (history ++ [call]) = ((b.after history).perform call).2 := by
  rw [after, List.foldl_append]
  rfl

/-- What an account store and a cache hold after a history that began with these accounts. -/
structure Holds (b : Backends) (accounts : Table String AccountRecord) (history : List JointCall) : Prop where
  /-- An account has the language that it was last given while the store was up. Nothing else of it changes, and no
  account appears. -/
  account : ∀ phone, b.accounts.accounts.get? phone = (accounts.get? phone).map fun record =>
    { record with
      language := (history.filterMap (JointCall.durable (JointWrite.languageOf phone))).getLast?.getD record.language }
  /-- The cache has the language that the number was last given while the cache was up, with an account or without. -/
  language : ∀ phone,
    b.cache.language? phone = (history.filterMap (JointCall.cached (JointWrite.languageOf phone))).getLast?
  /-- A guardian has every ward that it was given while the account store was up, as often and in that order. -/
  wards : ∀ guardian,
    b.accounts.wardsOf guardian = history.filterMap (JointCall.durable (JointWrite.wardOf guardian))
  /-- A ward has every guardian that it was given while the cache was up, each where it came first. -/
  guardians : ∀ ward,
    b.cache.guardiansOf ward = (history.filterMap (JointCall.cached (JointWrite.guardianOf ward))).eraseDups
  distinct : ∀ ward, (b.cache.guardiansOf ward).Nodup
  profiles : b.profiles = {}

theorem holds_after (accounts : Table String AccountRecord) (history : List JointCall) :
    ((opened accounts).after history).Holds accounts history := by
  induction history using List.reverseRecOn with
  | nil =>
    refine ⟨fun phone => ?_, fun _ => rfl, fun _ => rfl, fun _ => rfl, fun _ => List.nodup_nil, rfl⟩
    exact Option.map_id'.symm
  | append_singleton earlier call ih =>
    rw [after_concat]
    refine ⟨fun phone => ?_, fun phone => ?_, fun guardian => ?_, fun ward => ?_, fun ward => ?_, ?_⟩
    · rw [account_perform, ih.account, Option.map_map, getLast?_filterMap_concat]
      refine congrArg (Option.map · (accounts.get? phone)) (funext fun record => ?_)
      cases call.durable (JointWrite.languageOf phone) <;> simp
    · rw [language?_perform, ih.language, getLast?_filterMap_concat]
    · rw [wardsOf_perform, ih.wards, filterMap_concat]
    · rw [guardiansOf_perform, ih.guardians, filterMap_concat, eraseDups_concat]
    · rw [guardiansOf_perform]
      refine (ih.distinct ward).append ?_ ?_
      · cases call.cached (JointWrite.guardianOf ward) with
        | none => exact List.nodup_nil
        | some guardian => exact (List.nodup_singleton guardian).filter _
      · intro guardian held added
        simpa [held] using (List.mem_filter.1 added).2
    · rw [profiles_perform, ih.profiles]

/-- A guardian that is stored once without the cache and then twice is a guardian once and has the ward three times. -/
example :
    let stored : JointWrite := .storeGuardian "0711" "0700"
    let b := (opened .empty).after [{ write := stored, cacheDown := true }, { write := stored }, { write := stored }]
    b.accounts.wardsOf "0711" = ["0700", "0700", "0700"] ∧ b.cache.guardiansOf "0700" = ["0711"] := by decide +kernel

/-- The two stores tell the same: who guards whom, and the language of every number that was given one. -/
structure Mirrored (b : Backends) (history : List JointCall) : Prop where
  guarded : ∀ guardian ward, ward ∈ b.accounts.wardsOf guardian ↔ guardian ∈ b.cache.guardiansOf ward
  language : ∀ phone language,
    (history.filterMap fun call => call.write.languageOf phone).getLast? = some language →
      b.accounts.language? phone = some language ∧ b.cache.language? phone = some language

theorem mirrored_of_accepted {accounts : Table String AccountRecord} {history : List JointCall} {b : Backends}
    (holds : b.Holds accounts history)
    (accepted : ∀ call ∈ history, call.durableError? accounts = none ∧ call.cachedError? = none) :
    b.Mirrored history := by
  have durable (asked : JointWrite → Option String) :
      history.filterMap (JointCall.durable asked) = history.filterMap fun call => asked call.write :=
    List.filterMap_congr fun call mem => by
      simp [JointCall.durable, (JointCall.durableError?_eq_none_iff.1 (accepted call mem).1).1]
  have cached (asked : JointWrite → Option String) :
      history.filterMap (JointCall.cached asked) = history.filterMap fun call => asked call.write :=
    List.filterMap_congr fun call mem => by
      simp [JointCall.cached, JointCall.cachedError?_eq_none_iff.1 (accepted call mem).2]
  constructor
  · intro guardian ward
    rw [holds.wards, holds.guardians, List.mem_eraseDups, durable, cached, List.mem_filterMap, List.mem_filterMap]
    simp only [JointWrite.wardOf_eq_some_iff, JointWrite.guardianOf_eq_some_iff]
  · intro phone language given
    obtain ⟨call, mem, asked⟩ := List.mem_filterMap.1 (List.mem_of_getLast? given)
    have known := (JointCall.durableError?_eq_none_iff.1 (accepted call mem).1).2 _ _
      (JointWrite.languageOf_eq_some_iff.1 asked)
    obtain ⟨record, found⟩ := Option.isSome_iff_exists.1 known
    constructor
    · rw [AccountStore.language?, holds.account, found, durable, given]
      rfl
    · rw [holds.language, cached, given]

/-- Both stores hold after any history of joint writes what was asked of them while they were up, every call is
answered by its own two halves, and if all were accepted, the stores mirror each other. -/
theorem joint_writes (accounts : Table String AccountRecord) (history : List JointCall) :
    ((opened accounts).after history).Holds accounts history ∧
      List.Forall₂ (JointCall.Answered accounts) history ((opened accounts).answers history) ∧
      ((∀ answer ∈ (opened accounts).answers history, answer = .ok ()) →
        ((opened accounts).after history).Mirrored history) := by
  have holds := holds_after accounts history
  have answered := answered_answers (b := opened accounts) (fun _ => rfl) history
  exact ⟨holds, answered, fun ok => mirrored_of_accepted holds (JointCall.accepted_of_answered answered ok)⟩

end Backends

end DialMenu.Menus
