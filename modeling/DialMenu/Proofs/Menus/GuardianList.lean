import DialMenu.Proofs.Menus.Entry
import DialMenu.Proofs.Menus.Grammar
import Mathlib.Data.List.Nodup

/-!
The list of guardians over whole conversations. A number is checked against the list when it is entered, and joins it
some turns later; in between the PIN may be asked for again and again. What carries the check to the end is that the
list changes only when the number that is pending is taken into it.
-/

namespace DialMenu.Menus.Guardians

/-- A number that may become a guardian. -/
structure Candidate (s : Subscriber) (number : String) : Prop where
  wellFormed : PhoneNumber number
  notOwn : number ≠ s.phone
  fresh : number ∉ s.user.guardians

theorem isValidGuardian_iff {s : Subscriber} {event : Event} :
    isValidGuardian s event = true ↔ Candidate s (Text.trim event.input) := by
  have decided : isValidGuardian s event = true ↔ PhoneNumber (Text.trim event.input) ∧
      Text.trim event.input ≠ s.phone ∧ Text.trim event.input ∉ s.user.guardians := by
    simp [isValidGuardian, isPhoneNumber_iff, and_assoc]
  rw [decided]
  constructor
  · rintro ⟨wellFormed, notOwn, fresh⟩
    exact ⟨wellFormed, notOwn, fresh⟩
  · intro candidate
    exact ⟨candidate.wellFormed, candidate.notOwn, candidate.fresh⟩

/-- No one guards themselves, and no guardian is listed twice. -/
structure Listed (s : Subscriber) : Prop where
  nodup : s.user.guardians.Nodup
  notOwn : s.phone ∉ s.user.guardians

/-- The list has only grown since `s`, at its end and by phone numbers. -/
structure Extends (s t : Subscriber) : Prop where
  phone : t.phone = s.phone
  added : ∃ added, t.user.guardians = s.user.guardians ++ added ∧ ∀ number ∈ added, PhoneNumber number

theorem Extends.refl (s : Subscriber) : Extends s s where
  phone := rfl
  added := ⟨[], by simp⟩

/-- What holds all along a conversation that began with `s`. -/
structure Sound (s t : Subscriber) : Prop where
  listed : Listed t
  since : Extends s t
  pending : ∀ number, t.pending.guardian = some number → Candidate t number

section Sound

variable {s t t' : Subscriber}

/-- All of it is about the user and about what is pending. -/
theorem Sound.congr (user : t'.user = t.user) (pending : t'.pending = t.pending) (sound : Sound s t) : Sound s t' := by
  have phone : t'.phone = t.phone := congrArg (·.account.phone) user
  have guardians : t'.user.guardians = t.user.guardians := congrArg User.guardians user
  refine ⟨⟨guardians ▸ sound.listed.nodup, ?_⟩, ⟨phone.trans sound.since.phone, guardians ▸ sound.since.added⟩, ?_⟩
  · rw [phone, guardians]
    exact sound.listed.notOwn
  · intro number entered
    rw [pending] at entered
    obtain ⟨wellFormed, notOwn, fresh⟩ := sound.pending number entered
    exact ⟨wellFormed, phone ▸ notOwn, guardians ▸ fresh⟩

theorem Sound.saveGuardianEntry (sound : Sound s t) {event : Event} (accepted : isValidGuardian t event = true)
    (tag : Option String) : Sound s (saveGuardianEntry { t with feedback := tag } event) where
  listed := ⟨sound.listed.nodup, sound.listed.notOwn⟩
  since := ⟨sound.since.phone, sound.since.added⟩
  pending number entered := by
    obtain rfl : Text.trim event.input = number := Option.some.inj entered
    obtain ⟨wellFormed, notOwn, fresh⟩ := isValidGuardian_iff.1 accepted
    exact ⟨wellFormed, notOwn, fresh⟩

/-- The number that is pending joins the list, and none is pending any more. -/
theorem Sound.recordGuardian (sound : Sound s t) (event : Event) : Sound s (recordGuardian t event) := by
  cases entered : t.pending.guardian with
  | none =>
    have same : Guardians.recordGuardian t event = t := by rw [Guardians.recordGuardian, entered]
    rw [same]
    exact sound
  | some number =>
    have joined : Guardians.recordGuardian t event =
        { t with pending.guardian := none, user.guardians := t.user.guardians ++ [number] } := by
      rw [Guardians.recordGuardian, entered]
    rw [joined]
    obtain ⟨wellFormed, notOwn, fresh⟩ := sound.pending number entered
    obtain ⟨added, grown, numbers⟩ := sound.since.added
    refine ⟨⟨?_, ?_⟩, ⟨sound.since.phone, added ++ [number], ?_, ?_⟩, fun other left => by cases left⟩
    · rw [← List.concat_eq_append]
      exact List.Nodup.concat fresh sound.listed.nodup
    · intro own
      rcases List.mem_append.1 own with before | new
      · exact sound.listed.notOwn before
      · exact notOwn (List.mem_singleton.1 new).symm
    · rw [← List.append_assoc, ← grown]
    · exact List.forall_mem_append.2 ⟨numbers, List.forall_mem_singleton.2 wellFormed⟩

end Sound

theorem guard_isValidGuardian (year : Int) :
    (Menu.guardians.bindings year).guard "isValidGuardian" = some ⟨"isValidGuardian", isValidGuardian⟩ := rfl

theorem action_saveGuardianEntry (year : Int) :
    (Menu.guardians.bindings year).action "saveGuardianEntry" = some ⟨"saveGuardianEntry", saveGuardianEntry⟩ := rfl

theorem action_recordGuardian (year : Int) :
    (Menu.guardians.bindings year).action "recordGuardian" = some ⟨"recordGuardian", recordGuardian⟩ := rfl

theorem keeps (s : Subscriber) (year : Int) :
    Change.guardian.Keeps year (Sound s) fun t => t.pending.guardian.isSome = true where
  sound_congr _ _ user pending sound := sound.congr user pending
  filled_congr _ _ _ pending filled := pending ▸ filled
  entry := by
    intro entry mem
    obtain rfl := List.mem_singleton.1 mem
    refine ⟨_, _, guard_isValidGuardian year, action_saveGuardianEntry year, ?_⟩
    intro t tag event accepted sound
    dsimp only at accepted
    exact ⟨sound.saveGuardianEntry accepted tag, rfl⟩
  confirmation := by
    refine List.forall_mem_singleton.2 ⟨_, action_recordGuardian year, fun t event sound => ?_⟩
    exact sound.recordGuardian event

/-- The rejection of a call without a guardian. -/
def missingGuardian : ServiceError := .machine additionErrorCode "No guardian entered."

/-- No backend words its failure like that. -/
theorem message_ne_missingGuardian (err : BackendError) : err.message ≠ "No guardian entered." := by
  intro same
  cases err with
  | unavailable backend => exact absurd (prefix_of_append_eq same) (by decide)
  | notFound record => exact absurd (prefix_of_append_eq same) (by decide)

/-- It is the rejection of exactly those calls. -/
theorem addGuardian_missing_iff {s : Subscriber} {b : Backends} :
    (addGuardian s b).1 = .error missingGuardian ↔ s.pending.guardian = none := by
  unfold addGuardian
  cases s.pending.guardian with
  | none => exact iff_of_true rfl rfl
  | some guardian =>
    refine iff_of_false ?_ nofun
    dsimp only
    generalize b.storeGuardian guardian s.phone = stored
    rcases stored with ⟨err | _, left⟩
    · intro same
      exact message_ne_missingGuardian err (ServiceError.machine.inj (Except.error.inj same)).2
    · exact nofun

/-- Where a guardian was entered, its service has something to add, if it comes to that. -/
theorem withPin_addGuardian_ne {s : Subscriber} (entered : s.pending.guardian.isSome = true) (event : Event)
    (b : Backends) : (withPin addGuardian s event b).result ≠ .error missingGuardian := by
  refine withPin_ne (by decide) fun left same => ?_
  rw [addGuardian_missing_iff.1 same] at entered
  cases entered

/-- Wherever a conversation stands, its user guards nobody twice and not themselves, and the list has only grown by
phone numbers; in the entry of the PIN there is a candidate to add. Whatever happens next, no call is made without
one. -/
theorem guardians_kept {s t : Subscriber} {year : Int} {state : String} (idle : s.pending.guardian = none)
    (listed : Listed s) (visits : Menu.guardians.Visits s year state t) :
    Listed t ∧ Extends s t ∧
      (state = "enteringAddGuardianPin" → ∃ number, t.pending.guardian = some number ∧ Candidate t number) ∧
      ∀ (later : Int) (machine : Machine Subscriber Backends), Menu.guardians.machine later = .ok machine →
        ∀ (classify : ServiceError → Failure) (now : Instant) (event : Event) (b : Backends),
          ∀ logged ∈ ((Interpreter.mk machine classify).logged.step now state t event (b, [])).env.2,
            logged.result ≠ .error missingGuardian := by
  have begins : Sound s s := ⟨listed, .refl s, fun number entered => by simp [idle] at entered⟩
  obtain ⟨sound, filled⟩ := Change.guardian.kept (keeps s) (fun _ _ _ _ kept => kept) (fun _ => begins) visits
  refine ⟨sound.listed, sound.since, fun here => ?_, fun later machine made classify now event b logged mem => ?_⟩
  · have awaits : state ∈ Change.guardian.awaiting := by rw [here]; decide
    obtain ⟨number, entered⟩ := Option.isSome_iff_exists.1 (filled awaits)
    exact ⟨number, entered, sound.pending number entered⟩
  · obtain ⟨protection, protects, called⟩ := Menu.exists_protection_of_logged made mem
    obtain rfl := List.mem_singleton.1 protects
    obtain ⟨context, env, -, entered, same⟩ := (keeps s later).exists_called made sound filled mem called.symm
    rw [same]
    exact withPin_addGuardian_ne entered event env

/-- A user with one guardian. -/
def guarded : Subscriber where
  user := {
    account := { phone := "+254700000001", address := "addr-1", language := "eng" }
    guardians := ["+254700000002"] }

def guardedBackends : Backends where
  accounts := AccountStore.insert {} "+254700000001" "1234" "eng"

theorem guardians_kept_guarded : ∃ machine, Menu.guardians.machine 2024 = .ok machine ∧
    let typed := typed machine guardedBackends ("guardiansMenu", guarded)
    let (state, entered) := typed ["1", " 0711000003 "]
    let (_, confirmed) := typed ["1", " 0711000003 ", "1234"]
    (∃ number, entered.pending.guardian = some number ∧ Candidate entered number) ∧
      confirmed.user.guardians = ["+254700000002", "0711000003"] ∧ Listed confirmed ∧ Extends guarded confirmed ∧
      ∀ logged ∈ ((Interpreter.mk machine ServiceError.classify).logged.step .epoch state entered
        { kind := .transit, input := "1234" } (guardedBackends, [])).env.2, logged.result ≠ .error missingGuardian := by
  obtain ⟨machine, made⟩ := Menu.guardians.exists_machine 2024
  have known : ∀ machine ∈ (Menu.guardians.machine 2024).toOption,
      let typed := typed machine guardedBackends ("guardiansMenu", guarded)
      (typed ["1", " 0711000003 "]).1 = "enteringAddGuardianPin" ∧
        (typed ["1", " 0711000003 ", "1234"]).2.user.guardians = ["+254700000002", "0711000003"] := by
    decide +kernel
  obtain ⟨here, added⟩ := known machine (by rw [made]; rfl)
  have listed : Listed guarded := ⟨by decide, by decide⟩
  have start : Menu.guardians.Visits guarded 2024 "guardiansMenu" guarded := .start 2024
  obtain ⟨-, -, candidate, calls⟩ := guardians_kept rfl listed (start.typed made guardedBackends ["1", " 0711000003 "])
  obtain ⟨kept, since, -, -⟩ :=
    guardians_kept rfl listed (start.typed made guardedBackends ["1", " 0711000003 ", "1234"])
  exact ⟨machine, made, candidate here, added, kept, since, calls 2024 machine made _ _ _ _⟩

end DialMenu.Menus.Guardians
