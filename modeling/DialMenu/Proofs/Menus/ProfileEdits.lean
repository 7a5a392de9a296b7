import DialMenu.Proofs.Menus.Entry
import DialMenu.Proofs.Menus.Grammar

/-!
What the profile menu writes. A field is taken in only behind its check, which reads the input as the action behind it
does; so what is pending is well formed at any time, and a year of birth that was not in the future when it was entered
stays so.
-/

namespace DialMenu.Menus.ProfileMenu

/-- What a page takes in, behind its check. -/
inductive Saves (year : Int) (t : Subscriber) (event : Event) : Subscriber → Prop
  | givenNames : isName event.input = true → Saves year t event (saveGivenNames t event)
  | familyName : isName event.input = true → Saves year t event (saveFamilyName t event)
  | gender : (gender? event.input).isSome = true → Saves year t event (saveGender t event)
  | yearOfBirth : isYearOfBirth year event.input = true → Saves year t event (saveYear t event)
  | location : isLocation event.input = true → Saves year t event (saveLocation t event)

/-- What the pages keep the menu keeps on its way to the PIN. A guard that looks for the next field, too, lets nothing
else in. -/
theorem takes_of_saves {year : Int} {Sound Filled : Subscriber → Prop}
    (sound_congr : ∀ t t' : Subscriber, t'.user = t.user → t'.pending = t.pending → Sound t → Sound t')
    (filled_congr : ∀ t t' : Subscriber, t'.user = t.user → t'.pending = t.pending → Filled t → Filled t')
    (saves : ∀ t event t', Saves year t event t' → Sound t → Sound t' ∧ Filled t') :
    Change.profile.Takes year Sound Filled where
  sound_congr := sound_congr
  filled_congr := filled_congr
  entry := by
    have enters {t t' : Subscriber} {tag : Option String} {event : Event} (sound : Sound t)
        (saved : Saves year { t with feedback := tag } event t') : Sound t' ∧ Filled t' :=
      saves _ event t' saved (sound_congr t _ rfl rfl sound)
    have both {p q : Bool} (accepted : (p && q) = true) : p = true := ((Bool.and_eq_true p q).mp accepted).1
    simp only [Change.entries, List.forall_mem_cons]
    refine ⟨?_, ?_, ?_, ?_, ?_, ?_, ?_, ?_, nofun⟩
    · exact ⟨_, _, rfl, rfl, fun t tag event accepted sound => enters sound (.givenNames accepted)⟩
    · exact ⟨_, _, rfl, rfl, fun t tag event accepted sound => enters sound (.familyName (both accepted))⟩
    · exact ⟨_, _, rfl, rfl, fun t tag event accepted sound => enters sound (.familyName accepted)⟩
    · exact ⟨_, _, rfl, rfl, fun t tag event accepted sound => enters sound (.gender (both accepted))⟩
    · exact ⟨_, _, rfl, rfl, fun t tag event accepted sound => enters sound (.gender accepted)⟩
    · exact ⟨_, _, rfl, rfl, fun t tag event accepted sound => enters sound (.yearOfBirth (both accepted))⟩
    · exact ⟨_, _, rfl, rfl, fun t tag event accepted sound => enters sound (.yearOfBirth accepted)⟩
    · exact ⟨_, _, rfl, rfl, fun t tag event accepted sound => enters sound (.location accepted)⟩

/-- Each field that is set is one that the menu accepts in `year`. -/
structure Validated (year : Int) (update : Profile) : Prop where
  givenNames : ∀ names, update.givenNames = some names → ProperName names
  familyName : ∀ name, update.familyName = some name → ProperName name
  yearOfBirth : ∀ born, update.yearOfBirth = some born → earliestYearOfBirth ≤ born.toInt ∧ born.toInt ≤ year
  location : ∀ place, update.location = some place → PlaceName place

/-- Something is set, and all of it is accepted. -/
structure Submission (year : Int) (update : Profile) : Prop extends Validated year update where
  nonempty : update ≠ {}

theorem validated_empty (year : Int) : Validated year {} := ⟨nofun, nofun, nofun, nofun⟩

namespace Validated

variable {year : Int} {update : Profile} {input : String}

theorem mono (valid : Validated year update) {later : Int} (passes : year ≤ later) : Validated later update where
  givenNames := valid.givenNames
  familyName := valid.familyName
  yearOfBirth born set := (valid.yearOfBirth born set).imp_right fun past => Int.le_trans past passes
  location := valid.location

theorem takes_givenNames (valid : Validated year update) (accepted : isName input = true) :
    Submission year { update with givenNames := some input } where
  givenNames _ set := Option.some.inj set ▸ isName_iff.1 accepted
  familyName := valid.familyName
  yearOfBirth := valid.yearOfBirth
  location := valid.location
  nonempty empty := nomatch congrArg Profile.givenNames empty

theorem takes_familyName (valid : Validated year update) (accepted : isName input = true) :
    Submission year { update with familyName := some input } where
  givenNames := valid.givenNames
  familyName _ set := Option.some.inj set ▸ isName_iff.1 accepted
  yearOfBirth := valid.yearOfBirth
  location := valid.location
  nonempty empty := nomatch congrArg Profile.familyName empty

theorem takes_gender (valid : Validated year update) (accepted : (gender? input).isSome = true) :
    Submission year { update with gender := gender? input } where
  toValidated := ⟨valid.givenNames, valid.familyName, valid.yearOfBirth, valid.location⟩
  nonempty empty := by
    have none : gender? input = none := congrArg Profile.gender empty
    simp [none] at accepted

theorem takes_year (valid : Validated year update) (accepted : isYearOfBirth year input = true) :
    Submission year { update with yearOfBirth := year? input } := by
  obtain ⟨born, read, bounds⟩ := exists_year accepted
  rw [read]
  exact ⟨⟨valid.givenNames, valid.familyName, fun _ set => Option.some.inj set ▸ bounds, valid.location⟩,
    fun empty => nomatch congrArg Profile.yearOfBirth empty⟩

theorem takes_location (valid : Validated year update) (accepted : isLocation input = true) :
    Submission year { update with location := some (Text.trim input) } where
  givenNames := valid.givenNames
  familyName := valid.familyName
  yearOfBirth := valid.yearOfBirth
  location _ set := Option.some.inj set ▸ placeName_trim accepted
  nonempty empty := nomatch congrArg Profile.location empty

end Validated

theorem pending_saveLoaded (s : Subscriber) (event : Event) : (saveLoaded s event).pending = s.pending := by
  unfold saveLoaded
  split <;> rfl

theorem keeps (year : Int) :
    Change.profile.Keeps year (fun t => Validated year t.pending.profile) fun t => t.pending.profile ≠ {} where
  toTakes := by
    refine takes_of_saves (fun _ _ _ pending valid => pending ▸ valid) (fun _ _ _ pending filled => pending ▸ filled) ?_
    intro t event t' saved valid
    have submission : Submission year t'.pending.profile := by
      cases saved with
      | givenNames accepted => exact valid.takes_givenNames accepted
      | familyName accepted => exact valid.takes_familyName accepted
      | gender accepted => exact valid.takes_gender accepted
      | yearOfBirth accepted => exact valid.takes_year accepted
      | location accepted => exact valid.takes_location accepted
    exact ⟨submission.toValidated, submission.nonempty⟩
  confirmation := by
    refine List.forall_mem_cons.2 ⟨⟨_, rfl, fun t event _ => validated_empty year⟩, List.forall_mem_singleton.2 ?_⟩
    refine ⟨⟨"savePersonalInformation", saveLoaded⟩, rfl, fun t event valid => ?_⟩
    dsimp only
    rw [pending_saveLoaded]
    exact valid

/-- The profiles are as they were, or an update of the pending edits was written to them. -/
theorem profiles_withPin {protection : Protection} (mem : protection ∈ Menu.profile.protections) (s : Subscriber)
    (event : Event) (b : Backends) :
    (withPin protection.work s event b).env.profiles = b.profiles ∨ protection.entry = "enteringProfileChangePin" ∧
      (withPin protection.work s event b).env.profiles =
        (b.profiles.upsert s.user.account.address s.pending.profile).2 := by
  have checked := (acceptsLike_validatePin s event.input b).profiles
  cases valid : (validatePin s event.input b).1 with
  | error err =>
    rw [withPin_of_error valid]
    exact .inl checked
  | ok _ =>
    rw [withPin_of_ok valid]
    rcases List.mem_pair.1 mem with rfl | rfl
    · right
      refine ⟨rfl, ?_⟩
      dsimp only [Protection.profileChange]
      rw [backends_changeProfile, ← checked]
      rfl
    · left
      dsimp only [Protection.profileView]
      rw [backends_loadProfile, checked]

/-- Wherever a conversation stands, all that is pending is accepted, and in the entry of the PIN something is pending.
Whatever happens next, in the same year or later, the service of the change is met with accepted edits only, and the
profiles stay as they are or take such edits up. -/
theorem updates_validated {s t : Subscriber} {year : Int} {state : String} (idle : s.pending.profile = {})
    (visits : Menu.profile.Visits s year state t) :
    Validated year t.pending.profile ∧ (state = "enteringProfileChangePin" → t.pending.profile ≠ {}) ∧
      ∀ (later : Int) (machine : Machine Subscriber Backends), year ≤ later →
        Menu.profile.machine later = .ok machine →
        ∀ (classify : ServiceError → Failure) (now : Instant) (event : Event) (b : Backends),
          let i := Interpreter.mk machine classify
          let rest := i.step now state t event b
          (∀ hops p, Walk i now event ⟨state, t, b⟩ hops p → p.state = "authorizingProfileChange" →
              Submission later p.context.pending.profile) ∧
            (rest.env.profiles = b.profiles ∨ ∃ update, Submission later update ∧
              rest.env.profiles = (b.profiles.upsert t.user.account.address update).2) := by
  have begins (year : Int) : Validated year s.pending.profile := idle ▸ validated_empty year
  have ages (year later : Int) (t : Subscriber) (passes : year ≤ later) (valid : Validated year t.pending.profile) :
      Validated later t.pending.profile := valid.mono passes
  obtain ⟨valid, filled⟩ := Change.profile.kept keeps ages begins visits
  have entry : "enteringProfileChangePin" ∈ Change.profile.awaiting := by decide
  have call : "authorizingProfileChange" ∈ Change.profile.awaiting := by decide
  refine ⟨valid, fun here => filled (here ▸ entry), ?_⟩
  intro later machine passes made classify now event b i rest
  have compiled := (Bindings.wellFormed_of_resolve made).2
  have valid' : Validated later t.pending.profile := valid.mono passes
  constructor
  · intro hops p walk here
    obtain ⟨accepted, something⟩ := walk.maintains compiled (keeps later).maintains ⟨valid', filled⟩
    exact ⟨accepted, something (here ▸ call)⟩
  · rcases Menu.step_env made classify now state t event b with same | ⟨protection, mem, here, left⟩
    · exact .inl (congrArg Backends.profiles same)
    · have written := profiles_withPin mem (Context.setFeedback none t) event b
      rw [← left] at written
      rcases written with same | ⟨change, upserted⟩
      · exact .inl same
      · have something := filled (here ▸ change ▸ entry)
        exact .inr ⟨t.pending.profile, ⟨valid', something⟩, upserted⟩

/-- A user whose profile lacks nothing that the menu asks for. -/
def resident : Subscriber where
  user := {
    account := { phone := "+254700000001", address := "addr-1", language := "eng" }
    identity := some {
      id := 1
      profile := { gender := some .female, yearOfBirth := some 1989, location := some "Nakuru" } } }

def residentBackends : Backends where
  accounts := AccountStore.insert {} "+254700000001" "1234" "eng"

theorem updates_validated_resident : ∃ machine later, Menu.profile.machine 2024 = .ok machine ∧
    Menu.profile.machine 2025 = .ok later ∧
    let (state, t) := typed machine residentBackends ("profileMenu", resident) ["3", " +1990 "]
    let rest := Interpreter.step { machine := later } .epoch state t { kind := .transit, input := "1234" }
      residentBackends
    Validated 2024 t.pending.profile ∧ t.pending.profile ≠ {} ∧ ∃ update, Submission 2025 update ∧
      rest.env.profiles = (residentBackends.profiles.upsert t.user.account.address update).2 := by
  obtain ⟨machine, made⟩ := Menu.profile.exists_machine 2024
  obtain ⟨later, made'⟩ := Menu.profile.exists_machine 2025
  have known : ∀ machine ∈ (Menu.profile.machine 2024).toOption, ∀ later ∈ (Menu.profile.machine 2025).toOption,
      let (state, t) := typed machine residentBackends ("profileMenu", resident) ["3", " +1990 "]
      state = "enteringProfileChangePin" ∧
        (Interpreter.step { machine := later } .epoch state t { kind := .transit, input := "1234" }
          residentBackends).env.profiles ≠ residentBackends.profiles := by
    decide +kernel
  obtain ⟨here, changed⟩ := known machine (by rw [made]; rfl) later (by rw [made']; rfl)
  have start : Menu.profile.Visits resident 2024 "profileMenu" resident := .start 2024
  obtain ⟨valid, something, turns⟩ := updates_validated rfl (start.typed made residentBackends ["3", " +1990 "])
  have written := (turns 2025 later (by decide) made' ServiceError.classify .epoch
    { kind := .transit, input := "1234" } residentBackends).2
  exact ⟨machine, later, made, made', valid, something here, written.resolve_left changed⟩

end DialMenu.Menus.ProfileMenu
