import DialMenu.Menus.Backends
import Mathlib.Data.List.DropRight
import Mathlib.Data.List.Infix

/-!
The PIN check over a whole history of the account store. What counts for a phone number is the list of the PINs
that were tried since the number was last inserted, while the store was up. The attempt counter and the lock are
read off that list, and nothing else in the history moves them.
-/

namespace DialMenu.Menus

/-- What can be done to an account store. -/
inductive AccountOperation where
  | insert (phone pin language : String)
  | verifyPin (phone pin : String)
  | updateLanguage (phone language : String)
  | addGuardian (guardian ward : String)
  | setDown (down : Bool)
deriving DecidableEq

/-- The operation inserts the number, or has a PIN judged for it. A store that is down judges none. -/
def AccountOperation.Concerns (phone : String) (down : Bool) : AccountOperation → Prop
  | .insert other _ _ => other = phone
  | .verifyPin other _ => other = phone ∧ down = false
  | .updateLanguage _ _ | .addGuardian _ _ | .setDown _ => False

/-- What the check of a PIN goes by: the PIN, the counter and the lock. -/
def AccountRecord.lock (record : AccountRecord) : String × Nat × Bool :=
  (record.pin, record.failedAttempts, record.blocked)

namespace AccountStore

/-- The store after one operation. -/
def perform (store : AccountStore) : AccountOperation → AccountStore
  | .insert phone pin language => store.insert phone pin language
  | .verifyPin phone pin => (store.verifyPin phone pin).2
  | .updateLanguage phone language => (store.updateLanguage phone language).2
  | .addGuardian guardian ward => (store.addGuardian guardian ward).2
  | .setDown down => { store with down }

/-- The store after a history. -/
def after (store : AccountStore) (history : List AccountOperation) : AccountStore := history.foldl perform store

variable {phone : String}

theorem down_perform (store : AccountStore) (operation : AccountOperation) : (store.perform operation).down =
    match operation with
    | .setDown down => down
    | _ => store.down := by
  cases operation with
  | insert | setDown => rfl
  | verifyPin other given =>
    simp only [perform, verifyPin]
    split
    · rfl
    · split <;> rfl
  | updateLanguage other language =>
    simp only [perform, updateLanguage]
    split
    · rfl
    · split <;> rfl
  | addGuardian guardian ward =>
    simp only [perform, addGuardian]
    split <;> rfl

/-- What an operation does to the record of a phone number. -/
theorem get?_perform (store : AccountStore) (operation : AccountOperation) (phone : String) :
    (store.perform operation).accounts.get? phone =
      match operation with
      | .insert other pin language => if other = phone then some { pin, language } else store.accounts.get? phone
      | .verifyPin other given =>
        if other = phone ∧ store.down = false then
          (store.accounts.get? phone).map fun record => (record.judge given).2
        else store.accounts.get? phone
      | .updateLanguage other language =>
        if other = phone ∧ store.down = false then
          (store.accounts.get? phone).map fun record => { record with language }
        else store.accounts.get? phone
      | .addGuardian _ _ | .setDown _ => store.accounts.get? phone := by
  cases operation with
  | insert other pin language => exact Table.get?_insert _ _ _ _
  | setDown => rfl
  | verifyPin other given =>
    simp only [perform, verifyPin]
    cases store.down with
    | true => simp
    | false =>
      cases found : store.accounts.get? other with
      | none => by_cases same : other = phone <;> simp_all
      | some record => by_cases same : other = phone <;> simp_all
  | updateLanguage other language =>
    simp only [perform, updateLanguage]
    cases store.down with
    | true => simp
    | false =>
      cases found : store.accounts.get? other with
      | none => by_cases same : other = phone <;> simp_all
      | some record => by_cases same : other = phone <;> simp_all
  | addGuardian guardian ward =>
    simp only [perform, addGuardian]
    split <;> rfl

/-- An operation that does not concern the number leaves alone what the check of its PIN goes by. -/
theorem lock_perform {store : AccountStore} {operation : AccountOperation}
    (idle : ¬ operation.Concerns phone store.down) :
    ((store.perform operation).accounts.get? phone).map AccountRecord.lock =
      (store.accounts.get? phone).map AccountRecord.lock := by
  rw [get?_perform]
  cases operation with
  | insert | verifyPin => exact congrArg _ (if_neg idle)
  | updateLanguage other language =>
    dsimp only
    split
    · rw [Option.map_map]
      rfl
    · rfl
  | addGuardian | setDown => rfl

end AccountStore

/-- How many of the latest tries in a row are wrong. -/
def wrongRun (pin : String) (tries : List String) : Nat := (tries.rtakeWhile (· ≠ pin)).length

/-- As many wrong PINs as block an account were tried with no right one between them. -/
def Exhausted (pin : String) (tries : List String) : Prop :=
  ∃ run, run <:+: tries ∧ run.length = maxPinAttempts ∧ ∀ given ∈ run, given ≠ pin

section Tries

variable {pin given : String} {tries : List String}

theorem wrongRun_concat_self : wrongRun pin (tries ++ [pin]) = 0 := by
  simp [wrongRun]

theorem wrongRun_concat_of_ne (wrong : given ≠ pin) : wrongRun pin (tries ++ [given]) = wrongRun pin tries + 1 := by
  simp [wrongRun, wrong]

/-- A run of wrong tries at the end is part of the longest one. -/
theorem exists_suffix_iff {n : Nat} :
    (∃ run, run <:+ tries ∧ run.length = n ∧ ∀ given ∈ run, given ≠ pin) ↔ n ≤ wrongRun pin tries := by
  constructor
  · rintro ⟨run, ⟨earlier, rfl⟩, rfl, wrong⟩
    have kept : ∀ given ∈ run.reverse, decide (given ≠ pin) = true := fun given mem =>
      decide_eq_true (wrong given (List.mem_reverse.1 mem))
    rw [wrongRun, List.rtakeWhile, List.reverse_append, List.takeWhile_append_of_pos kept, List.length_reverse,
      List.length_append, List.length_reverse]
    exact Nat.le_add_right _ _
  · intro enough
    have last := List.drop_suffix (wrongRun pin tries - n) (tries.rtakeWhile (· ≠ pin))
    refine ⟨_, last.trans (List.rtakeWhile_suffix _ tries), ?_, ?_⟩
    · rw [List.length_drop, ← wrongRun]
      omega
    · intro given mem
      simpa using List.mem_rtakeWhile_imp (last.mem mem)

theorem exhausted_concat_iff : Exhausted pin (tries ++ [given]) ↔
    Exhausted pin tries ∨ maxPinAttempts ≤ wrongRun pin (tries ++ [given]) := by
  rw [← exists_suffix_iff]
  constructor
  · rintro ⟨run, part, size, wrong⟩
    rcases List.infix_concat_iff.1 part with last | earlier
    · exact .inr ⟨run, last, size, wrong⟩
    · exact .inl ⟨run, earlier, size, wrong⟩
  · rintro (⟨run, earlier, size, wrong⟩ | ⟨run, last, size, wrong⟩)
    · exact ⟨run, List.infix_concat_iff.2 (.inr earlier), size, wrong⟩
    · exact ⟨run, last.isInfix, size, wrong⟩

theorem not_exhausted_nil : ¬ Exhausted pin [] := by
  rintro ⟨run, part, size, -⟩
  rw [List.infix_nil.1 part] at size
  cases size

theorem Exhausted.append (exhausted : Exhausted pin tries) (more : List String) : Exhausted pin (tries ++ more) := by
  obtain ⟨run, part, size, wrong⟩ := exhausted
  exact ⟨run, part.trans (List.infix_append' [] tries more), size, wrong⟩

theorem wrongRun_lt_of_not_exhausted (free : ¬ Exhausted pin tries) : wrongRun pin tries < maxPinAttempts := by
  refine Nat.lt_of_not_le fun enough => free ?_
  obtain ⟨run, last, size, wrong⟩ := exists_suffix_iff.2 enough
  exact ⟨run, last.isInfix, size, wrong⟩

end Tries

/-- The record counts these tries of the PIN. -/
structure AccountRecord.Counts (record : AccountRecord) (pin : String) (tries : List String) : Prop where
  own : record.pin = pin
  blocked : record.blocked = true ↔ Exhausted pin tries
  /-- The counter of a blocked account stays where it was. -/
  attempts : record.blocked = false → record.failedAttempts = wrongRun pin tries
  bounded : record.failedAttempts ≤ maxPinAttempts

/-- The answer to a PIN is the one that the tries before it call for. -/
structure PinCheck.Answers (check : PinCheck) (pin : String) (tries : List String) (given : String) : Prop where
  valid : check = .valid ↔ ¬ Exhausted pin tries ∧ given = pin
  invalid : ∀ remaining, check = .invalid remaining ↔ ¬ Exhausted pin tries ∧ given ≠ pin ∧
    wrongRun pin (tries ++ [given]) < maxPinAttempts ∧ remaining = maxPinAttempts - wrongRun pin (tries ++ [given])
  blocked : check = .blocked ↔ Exhausted pin tries ∨ given ≠ pin ∧ maxPinAttempts ≤ wrongRun pin (tries ++ [given])

namespace AccountRecord

variable {record : AccountRecord} {pin given : String} {tries : List String}

/-- The four ways in which a PIN is judged. -/
theorem judge_cases (record : AccountRecord) (given : String) :
    (record.blocked = true ∧ record.judge given = (.blocked, record)) ∨
    (record.blocked = false ∧ given = record.pin ∧
      record.judge given = (.valid, { record with failedAttempts := 0 })) ∨
    (record.blocked = false ∧ given ≠ record.pin ∧ maxPinAttempts ≤ record.failedAttempts + 1 ∧
      record.judge given =
        (.blocked, { record with failedAttempts := record.failedAttempts + 1, blocked := true })) ∨
    (record.blocked = false ∧ given ≠ record.pin ∧ record.failedAttempts + 1 < maxPinAttempts ∧
      record.judge given = (.invalid (maxPinAttempts - (record.failedAttempts + 1)),
        { record with failedAttempts := record.failedAttempts + 1 })) := by
  unfold judge
  cases blocked : record.blocked with
  | true => exact .inl ⟨rfl, rfl⟩
  | false =>
    by_cases right : record.pin = given
    · exact .inr (.inl ⟨rfl, right.symm, by simp [right]⟩)
    · by_cases last : maxPinAttempts ≤ record.failedAttempts + 1
      · exact .inr (.inr (.inl ⟨rfl, Ne.symm right, last, by simp [right, last]⟩))
      · exact .inr (.inr (.inr ⟨rfl, Ne.symm right, Nat.lt_of_not_le last, by simp [right, last]⟩))

/-- Only the lock of a record counts. -/
theorem Counts.of_lock_eq {other : AccountRecord} (counts : record.Counts pin tries)
    (same : other.lock = record.lock) : other.Counts pin tries := by
  obtain ⟨own, attempts, blocked⟩ : other.pin = record.pin ∧ other.failedAttempts = record.failedAttempts ∧
      other.blocked = record.blocked := by simpa [lock] using same
  exact ⟨own ▸ counts.own, blocked ▸ counts.blocked, by rw [blocked, attempts]; exact counts.attempts,
    attempts ▸ counts.bounded⟩

/-- Judging a PIN counts it. -/
theorem Counts.judge (counts : record.Counts pin tries) (given : String) :
    (record.judge given).2.Counts pin (tries ++ [given]) := by
  obtain ⟨rfl, blocked, attempts, bounded⟩ := counts
  rcases record.judge_cases given with
    ⟨locked, same⟩ | ⟨unlocked, rfl, same⟩ | ⟨unlocked, wrong, last, same⟩ | ⟨unlocked, wrong, room, same⟩
  · rw [same]
    refine ⟨rfl, ?_, fun unlocked => ?_, bounded⟩
    · exact iff_of_true locked ((blocked.1 locked).append [given])
    · simp [locked] at unlocked
  all_goals
    have free : ¬ Exhausted record.pin tries := fun exhausted => by simp [blocked.2 exhausted] at unlocked
    have counted := attempts unlocked
    rw [same]
  · refine ⟨rfl, ?_, fun _ => wrongRun_concat_self.symm, Nat.zero_le _⟩
    rw [exhausted_concat_iff, wrongRun_concat_self]
    exact iff_of_false (by simp [unlocked]) (by simp [free, maxPinAttempts])
  · have before := wrongRun_lt_of_not_exhausted free
    refine ⟨rfl, ?_, nofun, ?_⟩
    · rw [exhausted_concat_iff, wrongRun_concat_of_ne wrong, ← counted]
      exact iff_of_true rfl (.inr last)
    · change record.failedAttempts + 1 ≤ maxPinAttempts
      omega
  · refine ⟨rfl, ?_, fun _ => ?_, Nat.le_of_lt room⟩
    · rw [exhausted_concat_iff, wrongRun_concat_of_ne wrong, ← counted]
      exact iff_of_false (by simp [unlocked]) (not_or.2 ⟨free, Nat.not_le_of_lt room⟩)
    · rw [wrongRun_concat_of_ne wrong, ← counted]

theorem Counts.answers (counts : record.Counts pin tries) (given : String) :
    (record.judge given).1.Answers pin tries given := by
  obtain ⟨rfl, blocked, attempts, -⟩ := counts
  rcases record.judge_cases given with
    ⟨locked, same⟩ | ⟨unlocked, rfl, same⟩ | ⟨unlocked, wrong, last, same⟩ | ⟨unlocked, wrong, room, same⟩
  · have exhausted := blocked.1 locked
    rw [same]
    exact ⟨by simp [exhausted], by simp [exhausted], by simp [exhausted]⟩
  all_goals
    have free : ¬ Exhausted record.pin tries := fun exhausted => by simp [blocked.2 exhausted] at unlocked
    have counted := attempts unlocked
    rw [same]
  · exact ⟨by simp [free], by simp, by simp [free]⟩
  · rw [counted, ← wrongRun_concat_of_ne wrong] at last
    exact ⟨by simp [wrong], by simp [Nat.not_lt_of_le last], by simp [wrong, last]⟩
  · rw [counted, ← wrongRun_concat_of_ne wrong] at room ⊢
    refine ⟨by simp [wrong], fun remaining => ?_, by simp [free, Nat.not_le_of_lt room]⟩
    simp [free, wrong, room, eq_comm]

end AccountRecord

/-- What a history tells about one phone number. -/
structure PinLog where
  /-- The store is down. -/
  down : Bool
  /-- The PIN with which the number was last inserted. -/
  pin : Option String := none
  /-- The PINs that were tried since, while the store was up, the latest at the end. -/
  tries : List String := []
deriving DecidableEq

namespace PinLog

def next (phone : String) (log : PinLog) : AccountOperation → PinLog
  | .insert other pin _ => if other = phone then { log with pin := some pin, tries := [] } else log
  | .verifyPin other given =>
    if other = phone ∧ log.down = false then { log with tries := log.tries ++ [given] } else log
  | .setDown down => { log with down }
  | .updateLanguage _ _ | .addGuardian _ _ => log

/-- The log of a history that begins with the store up or down. -/
def ofHistory (phone : String) (down : Bool) (history : List AccountOperation) : PinLog :=
  history.foldl (next phone) { down }

/-- The store holds what the log says: the same outage, and for an inserted number a record that counts its tries. -/
structure Tracks (phone : String) (log : PinLog) (store : AccountStore) : Prop where
  down : store.down = log.down
  record : ∀ pin, log.pin = some pin →
    ∃ record, store.accounts.get? phone = some record ∧ record.Counts pin log.tries

variable {phone : String} {log : PinLog} {store : AccountStore} {operation : AccountOperation}

theorem down_next (log : PinLog) (operation : AccountOperation) : (log.next phone operation).down =
    match operation with
    | .setDown down => down
    | _ => log.down := by
  cases operation with
  | insert | verifyPin =>
    simp only [next]
    split <;> rfl
  | updateLanguage | addGuardian | setDown => rfl

theorem next_of_idle (idle : ¬ operation.Concerns phone log.down) :
    (log.next phone operation).pin = log.pin ∧ (log.next phone operation).tries = log.tries := by
  cases operation with
  | insert other | verifyPin other =>
    simp only [AccountOperation.Concerns] at idle
    rw [next, if_neg idle]
    exact ⟨rfl, rfl⟩
  | updateLanguage | addGuardian | setDown => exact ⟨rfl, rfl⟩

/-- An operation and its entry in the log keep store and log together. -/
theorem Tracks.perform (tracks : log.Tracks phone store) (operation : AccountOperation) :
    (log.next phone operation).Tracks phone (store.perform operation) := by
  obtain ⟨down, record⟩ := tracks
  refine ⟨by rw [down_next, AccountStore.down_perform, down], ?_⟩
  by_cases concerns : operation.Concerns phone log.down
  · cases operation with
    | insert other pin language =>
      have here : other = phone := concerns
      intro pin' last
      rw [next, if_pos here] at last ⊢
      cases last
      refine ⟨{ pin, language }, ?_, rfl, iff_of_false nofun not_exhausted_nil, fun _ => rfl, Nat.zero_le _⟩
      rw [AccountStore.get?_perform]
      exact if_pos here
    | verifyPin other given =>
      have judged : other = phone ∧ log.down = false := concerns
      intro pin last
      rw [next, if_pos judged] at last ⊢
      obtain ⟨found, present, counts⟩ := record pin last
      refine ⟨_, ?_, counts.judge given⟩
      rw [AccountStore.get?_perform, present]
      exact if_pos (down ▸ judged)
    | updateLanguage | addGuardian | setDown => exact concerns.elim
  · obtain ⟨samePin, sameTries⟩ := next_of_idle concerns
    have sameLock := AccountStore.lock_perform (down.symm ▸ concerns)
    intro pin last
    rw [samePin] at last
    obtain ⟨found, present, counts⟩ := record pin last
    rw [present] at sameLock
    obtain ⟨later, there, lock⟩ := Option.map_eq_some_iff.1 sameLock
    exact ⟨later, there, sameTries ▸ counts.of_lock_eq lock⟩

/-- A store stays together with the log of its history. -/
theorem Tracks.after (tracks : log.Tracks phone store) (history : List AccountOperation) :
    (history.foldl (next phone) log).Tracks phone (store.after history) := by
  induction history generalizing log store with
  | nil => exact tracks
  | cons operation history ih => exact ih (tracks.perform operation)

theorem tracks_ofHistory (phone : String) (store : AccountStore) (history : List AccountOperation) :
    (ofHistory phone store.down history).Tracks phone (store.after history) :=
  Tracks.after ⟨rfl, fun _ inserted => by cases inserted⟩ history

/-- Without another insertion the PIN stays, and the tries only grow. -/
theorem foldl_next_of_not_inserted (log : PinLog) {history : List AccountOperation}
    (kept : ∀ pin language, .insert phone pin language ∉ history) :
    (history.foldl (next phone) log).pin = log.pin ∧
      ∃ more, (history.foldl (next phone) log).tries = log.tries ++ more := by
  induction history generalizing log with
  | nil => exact ⟨rfl, [], (List.append_nil _).symm⟩
  | cons operation history ih =>
    have step : (log.next phone operation).pin = log.pin ∧
        ∃ more, (log.next phone operation).tries = log.tries ++ more := by
      by_cases concerns : operation.Concerns phone log.down
      · cases operation with
        | insert other pin language =>
          have here : other = phone := concerns
          exact absurd (here ▸ List.mem_cons_self) (kept pin language)
        | verifyPin other given =>
          have judged : other = phone ∧ log.down = false := concerns
          rw [next, if_pos judged]
          exact ⟨rfl, [given], rfl⟩
        | updateLanguage | addGuardian | setDown => exact concerns.elim
      · obtain ⟨pin, tries⟩ := next_of_idle concerns
        exact ⟨pin, [], by rw [tries, List.append_nil]⟩
    obtain ⟨pin, more, tries⟩ := step
    obtain ⟨pinLater, evenMore, triesLater⟩ :=
      ih (log.next phone operation) fun pin language mem => kept pin language (List.mem_cons_of_mem _ mem)
    exact ⟨pinLater.trans pin, more ++ evenMore, by rw [List.foldl_cons, triesLater, tries, List.append_assoc]⟩

end PinLog

namespace AccountStore

variable {store : AccountStore} {phone pin : String}

/-- What a store says about an inserted number after a history, by the log of the history. -/
structure AccountsFor (store : AccountStore) (phone pin : String) (log : PinLog) : Prop where
  /-- The account is blocked after enough wrong PINs in a row, and only then. -/
  blocked : store.isBlocked phone = true ↔ Exhausted pin log.tries
  /-- It stays blocked until the number is inserted again. -/
  stays : store.isBlocked phone = true → ∀ more : List AccountOperation,
    (∀ pin language, .insert phone pin language ∉ more) → (store.after more).isBlocked phone = true
  /-- Every PIN is answered by the tries before it. -/
  answered : log.down = false → ∀ given, ∃ check, (store.verifyPin phone given).1 = .ok check ∧
    check.Answers pin log.tries given
  /-- No PIN is answered while the store is down. -/
  unanswered : log.down = true → ∀ given, store.verifyPin phone given = (.error (.unavailable "accounts"), store)
  /-- Nothing but insertions of the number and PINs judged for it moves its counter or its lock. -/
  idle : ∀ operation : AccountOperation, ¬ operation.Concerns phone log.down →
    ((store.perform operation).accounts.get? phone).map AccountRecord.lock =
      (store.accounts.get? phone).map AccountRecord.lock
  /-- The counter is within its bound, and below it before the wrong PIN that is answered with what is left. -/
  bounded : ∃ record, store.accounts.get? phone = some record ∧ record.failedAttempts ≤ maxPinAttempts ∧
    (record.blocked = false → record.failedAttempts + 1 ≤ maxPinAttempts)

theorem isBlocked_iff_of_tracks {log : PinLog} (tracks : log.Tracks phone store) (inserted : log.pin = some pin) :
    store.isBlocked phone = true ↔ Exhausted pin log.tries := by
  obtain ⟨record, present, counts⟩ := tracks.record pin inserted
  rw [isBlocked, present, ← counts.blocked]
  rfl

theorem accountsFor_of_tracks {log : PinLog} (tracks : log.Tracks phone store) (inserted : log.pin = some pin) :
    store.AccountsFor phone pin log := by
  have blocked := isBlocked_iff_of_tracks tracks inserted
  obtain ⟨record, present, counts⟩ := tracks.record pin inserted
  refine ⟨blocked, ?_, ?_, ?_, fun operation idle => lock_perform (tracks.down.symm ▸ idle), ?_⟩
  · intro locked more kept
    obtain ⟨samePin, later, tries⟩ := PinLog.foldl_next_of_not_inserted log kept
    rw [isBlocked_iff_of_tracks (tracks.after more) (samePin.trans inserted), tries]
    exact (blocked.1 locked).append later
  · intro up given
    refine ⟨_, ?_, counts.answers given⟩
    rw [verifyPin, tracks.down, up, present]
    rfl
  · intro down given
    rw [verifyPin, tracks.down, down]
    rfl
  · refine ⟨record, present, counts.bounded, fun unlocked => ?_⟩
    have free : ¬ Exhausted pin log.tries := fun exhausted => by simp [counts.blocked.2 exhausted] at unlocked
    rw [counts.attempts unlocked]
    exact wrongRun_lt_of_not_exhausted free

/-- After any history an inserted number is accounted for by the PINs tried since its last insertion. -/
theorem accountsFor_after (store : AccountStore) (history : List AccountOperation)
    (inserted : (PinLog.ofHistory phone store.down history).pin = some pin) :
    (store.after history).AccountsFor phone pin (PinLog.ofHistory phone store.down history) :=
  accountsFor_of_tracks (PinLog.tracks_ofHistory phone store history) inserted

/-- Two wrong PINs for one number, with another number, an outage and a change of language between them. -/
def twoWrongPins : List AccountOperation := [
  .insert "0700" "1234" "eng", .insert "0711" "5678" "eng", .verifyPin "0700" "5678", .verifyPin "0711" "5678",
  .setDown true, .verifyPin "0700" "1234", .setDown false, .updateLanguage "0700" "swa", .verifyPin "0700" "0000"]

theorem accountsFor_after_twoWrongPins :
    let store := ({} : AccountStore).after twoWrongPins
    let log : PinLog := { down := false, pin := some "1234", tries := ["5678", "0000"] }
    PinLog.ofHistory "0700" false twoWrongPins = log ∧ store.AccountsFor "0700" "1234" log ∧
      ¬ Exhausted "1234" log.tries ∧ (store.verifyPin "0700" "1111").1 = .ok .blocked := by
  intro store log
  have told : PinLog.ofHistory "0700" ({} : AccountStore).down twoWrongPins = log := by decide
  have inserted : (PinLog.ofHistory "0700" ({} : AccountStore).down twoWrongPins).pin = some "1234" := told ▸ rfl
  have accounts := accountsFor_after {} twoWrongPins inserted
  rw [told] at accounts
  refine ⟨told, accounts, ?_, by decide +kernel⟩
  rw [← accounts.blocked]
  decide +kernel

end AccountStore

end DialMenu.Menus
