import DialMenu.Menus.Rules
import DialMenu.Proofs.Menus.PinAttempts

/-!
The PIN check in front of a protected change: what it may answer and when, and what a service behind it can reach in
the backends. Whatever the check finds, it moves no record of a feature.
-/

namespace DialMenu.Menus

/-- What the features keep in the backends: the durable languages and wards, the profiles, and the cached languages
and guardians. -/
structure FeatureRecords where
  language : String → Option String
  wards : Table String (List String)
  profiles : Table String Profile
  cachedLanguages : Table String String
  cachedGuardians : Table String (List String)

def Backends.featureRecords (b : Backends) : FeatureRecords where
  language := b.accounts.language?
  wards := b.accounts.wards
  profiles := b.profiles.profiles
  cachedLanguages := b.cache.languages
  cachedGuardians := b.cache.guardians

/-- The input is the PIN of the context's account, which is blocked neither in the store nor in the context. -/
structure Opens (s : Subscriber) (pin : String) (b : Backends) : Prop where
  up : b.accounts.down = false
  active : s.isBlocked = false
  account : ∃ record, b.accounts.accounts.get? s.phone = some record ∧ record.blocked = false ∧ record.pin = pin

/-- The account store is down, or does not know the account of the context. -/
def Unjudged (s : Subscriber) (b : Backends) : Prop :=
  b.accounts.down = true ∨ b.accounts.accounts.get? s.phone = none

theorem not_unjudged {s : Subscriber} {b : Backends} {record : AccountRecord} (up : b.accounts.down = false)
    (found : b.accounts.accounts.get? s.phone = some record) : ¬ Unjudged s b := by
  simp [Unjudged, up, found]

/-- What the PIN check may answer, and when. -/
inductive Verdict (s : Subscriber) (pin : String) (b : Backends) : Except ServiceError Unit → Prop
  | opened : Opens s pin b → Verdict s pin b (.ok ())
  | blocked : s.isBlocked = true → Verdict s pin b (.error .accountBlocked)
  | locked {record : AccountRecord} : s.isBlocked = false → b.accounts.down = false →
      b.accounts.accounts.get? s.phone = some record → record.blocked = true ∨ record.pin ≠ pin →
      Verdict s pin b (.error .accountBlocked)
  | wrong {record : AccountRecord} {message : String} : s.isBlocked = false → b.accounts.down = false →
      b.accounts.accounts.get? s.phone = some record → record.blocked = false → record.pin ≠ pin →
      Verdict s pin b (.error (.machine invalidPinCode message))
  | unjudged {message : String} : s.isBlocked = false → Unjudged s b → Verdict s pin b (.error (.unexpected message))

/-- Outside what the context's own changes are about the backends agree: the accounts and cached records of other
phone numbers, the profiles of other addresses, the wards of all but the guardian that was entered. -/
structure Spares (s : Subscriber) (b b' : Backends) : Prop where
  account : ∀ phone, phone ≠ s.phone → b'.accounts.accounts.get? phone = b.accounts.accounts.get? phone
  wards : ∀ guardian, s.pending.guardian ≠ some guardian →
    b'.accounts.wards.get? guardian = b.accounts.wards.get? guardian
  profile : ∀ address, address ≠ s.user.account.address →
    b'.profiles.profiles.get? address = b.profiles.profiles.get? address
  cachedLanguage : ∀ phone, phone ≠ s.phone → b'.cache.languages.get? phone = b.cache.languages.get? phone
  cachedGuardians : ∀ ward, ward ≠ s.phone → b'.cache.guardians.get? ward = b.cache.guardians.get? ward

namespace Spares

variable {s : Subscriber} {b b' b'' : Backends}

theorem refl (s : Subscriber) (b : Backends) : Spares s b b :=
  ⟨fun _ _ => rfl, fun _ _ => rfl, fun _ _ => rfl, fun _ _ => rfl, fun _ _ => rfl⟩

theorem trans (first : Spares s b b') (second : Spares s b' b'') : Spares s b b'' where
  account phone other := (second.account phone other).trans (first.account phone other)
  wards guardian other := (second.wards guardian other).trans (first.wards guardian other)
  profile address other := (second.profile address other).trans (first.profile address other)
  cachedLanguage phone other := (second.cachedLanguage phone other).trans (first.cachedLanguage phone other)
  cachedGuardians ward other := (second.cachedGuardians ward other).trans (first.cachedGuardians ward other)

end Spares

theorem AccountStore.wards_verifyPin (store : AccountStore) (phone pin : String) :
    (store.verifyPin phone pin).2.wards = store.wards := by
  unfold verifyPin
  split
  · rfl
  · split <;> rfl

theorem AccountStore.wards_updateLanguage (store : AccountStore) (phone language : String) :
    (store.updateLanguage phone language).2.wards = store.wards := by
  unfold updateLanguage
  split
  · rfl
  · split <;> rfl

theorem AccountStore.wardsOf_addGuardian (store : AccountStore) (guardian ward other : String) :
    (store.addGuardian guardian ward).2.wardsOf other =
      if guardian = other ∧ store.down = false then store.wardsOf other ++ [ward] else store.wardsOf other := by
  unfold addGuardian
  cases store.down with
  | true => simp
  | false => by_cases same : guardian = other <;> simp [wardsOf, same]

theorem AccountCache.language?_setLanguage (cache : AccountCache) (phone language other : String) :
    (cache.setLanguage phone language).2.language? other =
      if phone = other ∧ cache.down = false then some language else cache.language? other := by
  unfold setLanguage
  cases cache.down <;> simp [language?]

theorem AccountCache.guardiansOf_addGuardian (cache : AccountCache) (ward guardian other : String) :
    (cache.addGuardian ward guardian).2.guardiansOf other =
      if ward = other ∧ cache.down = false ∧ guardian ∉ cache.guardiansOf other then
        cache.guardiansOf other ++ [guardian]
      else cache.guardiansOf other := by
  unfold addGuardian
  cases cache.down with
  | true => simp
  | false =>
    by_cases same : ward = other
    · subst same
      refine (congrArg (Option.getD · []) (Table.get?_insert cache.guardians ward ward _)).trans ?_
      rw [if_pos rfl, Option.getD_some]
      by_cases known : guardian ∈ cache.guardiansOf ward <;> simp [known]
    · simp [guardiansOf, same]

theorem AccountRecord.language_judge (record : AccountRecord) (pin : String) :
    (record.judge pin).2.language = record.language := by
  rcases record.judge_cases pin with ⟨-, same⟩ | ⟨-, -, same⟩ | ⟨-, -, -, same⟩ | ⟨-, -, -, same⟩ <;> rw [same]

/-- Judging a PIN moves no language. -/
theorem AccountStore.language?_verifyPin (store : AccountStore) (phone pin other : String) :
    (store.verifyPin phone pin).2.language? other = store.language? other := by
  have judged : (store.verifyPin phone pin).2.accounts.get? other = _ :=
    store.get?_perform (.verifyPin phone pin) other
  rw [language?, language?, judged]
  dsimp only
  split
  · rw [Option.map_map]
    exact congrArg (Option.map · _) (funext fun record => record.language_judge pin)
  · rfl

section Check

variable (s : Subscriber) (pin : String) (b : Backends)

theorem verdict_validatePin : Verdict s pin b (validatePin s pin b).1 := by
  unfold validatePin
  cases blocked : s.isBlocked with
  | true => exact .blocked blocked
  | false =>
    simp only [Bool.false_eq_true, if_false, Backends.verifyPin, AccountStore.verifyPin]
    cases down : b.accounts.down with
    | true => exact .unjudged blocked (.inl down)
    | false =>
      cases found : b.accounts.accounts.get? s.phone with
      | none => exact .unjudged blocked (.inr found)
      | some record =>
        simp only [Bool.false_eq_true, if_false]
        rcases record.judge_cases pin with
          ⟨locked, same⟩ | ⟨free, right, same⟩ | ⟨free, wrong, -, same⟩ | ⟨free, wrong, -, same⟩
        · rw [same]
          exact .locked blocked down found (.inl locked)
        · rw [same]
          exact .opened ⟨down, blocked, record, found, free, right.symm⟩
        · rw [same]
          exact .locked blocked down found (.inr (Ne.symm wrong))
        · rw [same]
          exact .wrong blocked down found free (Ne.symm wrong)

theorem validatePin_env : (validatePin s pin b).2 = b ∨ (validatePin s pin b).2 = (b.verifyPin s.phone pin).2 := by
  unfold validatePin
  split
  · exact .inl rfl
  · exact .inr rfl

theorem featureRecords_validatePin : (validatePin s pin b).2.featureRecords = b.featureRecords := by
  rcases validatePin_env s pin b with same | judged
  · rw [same]
  · rw [judged]
    simp only [Backends.featureRecords, Backends.verifyPin, AccountStore.wards_verifyPin]
    rw [funext (b.accounts.language?_verifyPin s.phone pin)]

theorem spares_validatePin : Spares s b (validatePin s pin b).2 := by
  rcases validatePin_env s pin b with same | judged
  · rw [same]
    exact .refl s b
  · rw [judged]
    refine ⟨fun phone other => ?_, fun guardian _ => ?_, fun _ _ => rfl, fun _ _ => rfl, fun _ _ => rfl⟩
    · exact (b.accounts.get?_perform (.verifyPin s.phone pin) phone).trans (if_neg fun same => other same.1.symm)
    · exact congrArg (·.get? guardian) (b.accounts.wards_verifyPin s.phone pin)

end Check

/-- A message begins with what it is put together from. -/
theorem prefix_of_append_eq {front rest whole : String} (same : front ++ rest = whole) :
    front.toList <+: whole.toList := by
  rw [← same, String.toList_append]
  exact List.prefix_append _ _

section Behind

variable {work : Subscriber → Backends → Except ServiceError Value × Backends} {s : Subscriber} {event : Event}
  {b : Backends}

theorem withPin_of_ok (valid : (validatePin s event.input b).1 = .ok ()) :
    withPin work s event b =
      { result := (work s (validatePin s event.input b).2).1, env := (work s (validatePin s event.input b).2).2 } := by
  unfold withPin
  split
  · rename_i err b' checked
    rw [checked] at valid
    cases valid
  · rename_i b' checked
    rw [checked]

theorem withPin_of_error {err : ServiceError} (rejected : (validatePin s event.input b).1 = .error err) :
    withPin work s event b = { result := .error err, env := (validatePin s event.input b).2 } := by
  unfold withPin
  split
  · rename_i err' b' checked
    rw [checked] at rejected ⊢
    cases rejected
    rfl
  · rename_i b' checked
    rw [checked] at rejected
    cases rejected

/-- The check rejects with no other code than its own. -/
theorem Verdict.ne_machine {pin code : String} {result : Except ServiceError Unit}
    (verdict : Verdict s pin b result) (other : code ≠ invalidPinCode) (message : String) :
    result ≠ .error (.machine code message) := by
  cases verdict with
  | opened | blocked | locked | unjudged => exact nofun
  | wrong => exact fun same => other (ServiceError.machine.inj (Except.error.inj same)).1.symm

/-- A rejection with another code than that of the check is one by the work behind it. -/
theorem withPin_ne {code message : String} (other : code ≠ invalidPinCode)
    (works : ∀ b, (work s b).1 ≠ .error (.machine code message)) :
    (withPin work s event b).result ≠ .error (.machine code message) := by
  have verdict := (verdict_validatePin s event.input b).ne_machine other message
  cases checked : (validatePin s event.input b).1 with
  | error err =>
    rw [checked] at verdict
    rw [withPin_of_error checked]
    exact fun same => verdict (congrArg Except.error (Except.error.inj same))
  | ok _ =>
    rw [withPin_of_ok checked]
    exact works _

/-- A service behind the check reaches no further than its work does; and without the right PIN it moves no record of
a feature, and is rejected. -/
theorem withPin_guards (reach : ∀ s b, Spares s b (work s b).2) (s : Subscriber) (event : Event) (b : Backends) :
    let answer := withPin work s event b
    Spares s b answer.env ∧
      (Opens s event.input b ∨
        answer.env.featureRecords = b.featureRecords ∧ ∃ err, answer.result = .error err) := by
  intro answer
  have spared := spares_validatePin s event.input b
  have same := featureRecords_validatePin s event.input b
  have verdict := verdict_validatePin s event.input b
  cases checked : (validatePin s event.input b).1 with
  | ok _ =>
    rw [checked] at verdict
    cases verdict with
    | opened opens =>
      refine ⟨?_, .inl opens⟩
      simp only [answer, withPin_of_ok checked]
      exact spared.trans (reach s _)
  | error err =>
    simp only [answer, withPin_of_error checked]
    exact ⟨spared, .inr ⟨same, err, rfl⟩⟩

end Behind

section Work

variable (s : Subscriber) (b : Backends)

theorem spares_updateLanguage (language : String) : Spares s b (b.updateLanguage s.phone language).2 := by
  refine ⟨fun phone other => ?_, fun guardian _ => ?_, fun _ _ => rfl, fun phone other => ?_, fun ward _ => ?_⟩
  · exact (b.accounts.get?_perform (.updateLanguage s.phone language) phone).trans
      (if_neg fun same => other same.1.symm)
  · exact congrArg (·.get? guardian) (b.accounts.wards_updateLanguage s.phone language)
  · simp only [Backends.updateLanguage, Backends.writeBoth, AccountCache.setLanguage]
    split
    · rfl
    · exact (Table.get?_insert _ _ _ _).trans (if_neg other.symm)
  · simp only [Backends.updateLanguage, Backends.writeBoth, AccountCache.setLanguage]
    split <;> rfl

theorem spares_upsertProfile (update : Profile) : Spares s b (b.upsertProfile s.user.account.address update).2 := by
  refine ⟨fun _ _ => rfl, fun _ _ => rfl, fun address other => ?_, fun _ _ => rfl, fun _ _ => rfl⟩
  simp only [Backends.upsertProfile, ProfileStore.upsert]
  split
  · rfl
  · exact (Table.get?_insert _ _ _ _).trans (if_neg other.symm)

theorem spares_storeGuardian {guardian : String} (entered : s.pending.guardian = some guardian) :
    Spares s b (b.storeGuardian guardian s.phone).2 := by
  refine ⟨fun phone _ => ?_, fun other differs => ?_, fun _ _ => rfl, fun phone _ => ?_, fun ward other => ?_⟩
  · exact b.accounts.get?_perform (.addGuardian guardian s.phone) phone
  · have apart : guardian ≠ other := fun same => differs (same ▸ entered)
    simp only [Backends.storeGuardian, Backends.writeBoth, AccountStore.addGuardian]
    split
    · rfl
    · exact (Table.get?_insert _ _ _ _).trans (if_neg apart)
  · simp only [Backends.storeGuardian, Backends.writeBoth, AccountCache.addGuardian]
    split <;> rfl
  · simp only [Backends.storeGuardian, Backends.writeBoth, AccountCache.addGuardian]
    split
    · rfl
    · exact (Table.get?_insert _ _ _ _).trans (if_neg other.symm)

end Work

end DialMenu.Menus
