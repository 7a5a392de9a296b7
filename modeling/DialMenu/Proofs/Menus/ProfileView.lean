import DialMenu.Proofs.Menus.Encoding
import DialMenu.Proofs.Menus.ProfileEdits
import DialMenu.Proofs.Menus.Success

/-!
Viewing a profile. The service answers with what is stored for the address, as a free-form value, and the value is read
back field by field. So the turn that displays a profile shows the one that is stored, or the empty one, and leaves the
rest of the context and every stored profile alone.
-/

namespace DialMenu.Menus

namespace Profile

/-- A field that need not be set is read back from a value, in which it is null where it is not set. -/
theorem read_getD_null {α : Type} (write : α → Value) (read : Value → Option α) (null : read .null = none)
    (reads : ∀ a, read (write a) = some a) (field : Option α) : read ((field.map write).getD .null) = field := by
  cases field with
  | none => exact null
  | some a => exact reads a

theorem gender_getD_null (gender : Option Gender) :
    (((gender.map fun gender => Value.text gender.name).getD .null).asText).bind Gender.ofName? = gender :=
  read_getD_null (fun gender : Gender => .text gender.name) (fun value => value.asText.bind Gender.ofName?) rfl
    Gender.ofName?_name gender

/-- The fields of the value, each under its own name. -/
theorem get?_toValue (profile : Profile) :
    profile.toValue.get? "given_names" = some ((profile.givenNames.map Value.text).getD .null) ∧
      profile.toValue.get? "family_name" = some ((profile.familyName.map Value.text).getD .null) ∧
      profile.toValue.get? "gender" = some ((profile.gender.map fun gender => Value.text gender.name).getD .null) ∧
      profile.toValue.get? "year_of_birth" = some ((profile.yearOfBirth.map Value.int).getD .null) ∧
      profile.toValue.get? "location_name" = some ((profile.location.map Value.text).getD .null) := by
  simp [toValue, Value.ofEntries, Value.get?, Entries.ofList, Entries.get?_insert]

/-- A profile is read back from its value, whichever fields are set. -/
theorem ofValue_toValue (profile : Profile) : ofValue profile.toValue = profile := by
  obtain ⟨givenNames, familyName, gender, yearOfBirth, location⟩ := profile.get?_toValue
  have text (field : Option String) : ((field.map Value.text).getD .null).asText = field :=
    read_getD_null Value.text Value.asText rfl (fun _ => rfl) field
  have int (field : Option Int64) : ((field.map Value.int).getD .null).asInt = field :=
    read_getD_null Value.int Value.asInt rfl (fun _ => rfl) field
  simp only [ofValue, givenNames, familyName, gender, yearOfBirth, location, Option.bind_some, text, int,
    gender_getD_null]

end Profile

/-- The subscriber with this profile on display. The identity keeps its number, and no feedback is left. -/
def Subscriber.displaying (s : Subscriber) (profile : Profile) : Subscriber :=
  { s with
    user.identity := some { id := (s.user.identity.map Identity.id).getD 0, profile }
    feedback := none }

namespace ProfileMenu

/-- The answer of the service for a profile. -/
def loadedProfile (profile : Profile) : Value :=
  .ofEntries [("success", .bool true), ("personal_information", profile.toValue)]

theorem get?_loadedProfile (profile : Profile) :
    (loadedProfile profile).get? "personal_information" = some profile.toValue := by
  simp [loadedProfile, Value.ofEntries, Value.get?, Entries.ofList, Entries.get?_insert]

section Load

variable {s : Subscriber} {b : Backends}

theorem loadProfile_of_up (up : b.profiles.down = false) :
    (loadProfile s b).1 = .ok (loadedProfile ((b.profiles.profiles.get? s.user.account.address).getD {})) := by
  simp [loadProfile, ProfileStore.profile?, up, loadedProfile]

theorem loadProfile_of_down (down : b.profiles.down = true) :
    ∃ message, (loadProfile s b).1 = .error (.machine loadErrorCode message) := by
  simp [loadProfile, ProfileStore.profile?, down]

/-- Behind the check the service answers exactly if the PIN opens the account and the profile store is up, and then with
what the store has for the address. -/
theorem withPin_loadProfile_ok_iff {event : Event} {value : Value} :
    (withPin loadProfile s event b).result = .ok value ↔ Opens s event.input b ∧ b.profiles.down = false ∧
      value = loadedProfile ((b.profiles.profiles.get? s.user.account.address).getD {}) := by
  have same : (validatePin s event.input b).2.profiles = b.profiles :=
    (acceptsLike_validatePin s event.input b).profiles
  rw [← validatePin_ok_iff]
  cases checked : (validatePin s event.input b).1 with
  | error err => simp [withPin_of_error checked]
  | ok _ =>
    rw [withPin_of_ok checked]
    cases store : b.profiles.down with
    | true =>
      obtain ⟨message, failed⟩ := loadProfile_of_down (s := s) ((congrArg ProfileStore.down same).trans store)
      simp [failed]
    | false =>
      have answered := loadProfile_of_up (s := s) ((congrArg ProfileStore.down same).trans store)
      rw [same] at answered
      simp [answered, eq_comm]

end Load

/-- What the service answered is what the context shows. -/
theorem saveLoaded_answered (s : Subscriber) (profile : Profile) :
    saveLoaded s (Sequel.answered (loadedProfile profile)) =
      { s with user.identity := some { s.user.identity.getD {} with profile } } := by
  have read : (Sequel.answered (loadedProfile profile)).output.bind (Value.get? "personal_information") =
      some profile.toValue := get?_loadedProfile profile
  simp only [saveLoaded, read, Profile.ofValue_toValue]

theorem saveLoaded_cleared (s : Subscriber) (profile : Profile) :
    saveLoaded (Context.setFeedback none s) (Sequel.answered (loadedProfile profile)) = s.displaying profile := by
  rw [saveLoaded_answered]
  have number : (s.user.identity.getD {}).id = (s.user.identity.map Identity.id).getD 0 := by
    cases s.user.identity <;> rfl
  rw [Subscriber.displaying, ← number]
  rfl

/-- Only a success displays a profile. -/
theorem state_rejected_ne_displayingProfile {now : Instant} {s : Subscriber} {failure : Failure} {b : Backends} :
    (Sequel.profileView.rejected now s failure b).state ≠ "displayingProfile" := by
  have rests : (Sequel.profileView.rejected now s failure b).state ∈
      ["authorizingProfileView", "enteringProfileViewPin", "accountBlocked", "loadError"] := Sequel.state_rejected
  intro here
  rw [here] at rests
  exact absurd rests (by decide)

/-- A profile is read back from its value. A keystroke in the entry of the PIN for viewing displays a profile exactly if
the PIN opens the account and the profile store is up. Then the context shows the profile that is stored for its
address, or the empty one, and is otherwise as it was but for the feedback. No stored profile ever changes. -/
theorem view_shows_stored (year : Int) :
    (∀ profile : Profile, Profile.ofValue profile.toValue = profile) ∧
    ∃ machine, Menu.profile.machine year = .ok machine ∧
      ∀ (classify : ServiceError → Failure) (now : Instant) (s : Subscriber) (event : Event) (b : Backends),
        event.kind = .transit →
        let rest := Interpreter.step { machine, classify } now "enteringProfileViewPin" s event b
        (rest.state = "displayingProfile" ↔ Opens s event.input b ∧ b.profiles.down = false) ∧
          (rest.state = "displayingProfile" →
            rest.context = s.displaying ((b.profiles.profiles.get? s.user.account.address).getD {})) ∧
          rest.env.profiles = b.profiles := by
  obtain ⟨machine, made⟩ := Menu.profile.exists_machine year
  refine ⟨Profile.ofValue_toValue, machine, made, fun classify now s event b forward => ?_⟩
  intro rest
  let cleared : Subscriber := Context.setFeedback none s
  let answer := withPin loadProfile cleared event b
  have mem : Sequel.profileView ∈ Menu.profile.sequels := .tail _ (.head _)
  have turn : rest = Sequel.profileView.rest now cleared classify answer :=
    Menu.step_pin made mem classify now s forward b
  have stored : answer.env.profiles = b.profiles := by
    have kept := profiles_withPin (Menu.mem_protections mem) cleared event b
    exact kept.resolve_right fun change => absurd change.1 (by decide)
  have answers (value : Value) : answer.result = .ok value ↔ Opens s event.input b ∧ b.profiles.down = false ∧
      value = loadedProfile ((b.profiles.profiles.get? s.user.account.address).getD {}) := by
    have behind : answer.result = .ok value ↔ _ := withPin_loadProfile_ok_iff
    rwa [Change.opens_setFeedback] at behind
  rw [turn, Sequel.rest]
  cases result : answer.result with
  | ok value =>
    obtain ⟨opens, up, rfl⟩ := (answers value).1 result
    exact ⟨iff_of_true rfl ⟨opens, up⟩, fun _ => saveLoaded_cleared s _, stored⟩
  | error err =>
    have elsewhere : (Sequel.profileView.rejected now cleared (classify err) answer.env).state ≠ "displayingProfile" :=
      state_rejected_ne_displayingProfile
    have closed : ¬ (Opens s event.input b ∧ b.profiles.down = false) := by
      rintro ⟨opens, up⟩
      have answered := (answers _).2 ⟨opens, up, rfl⟩
      rw [result] at answered
      cases answered
    refine ⟨iff_of_false elsewhere closed, fun here => absurd here elsewhere, ?_⟩
    dsimp only
    rw [Sequel.env_rejected]
    exact stored

/-- Of the resident's profile the store has two fields, neither of them as in the context. -/
def residentProfiles : Backends where
  accounts := residentBackends.accounts
  profiles := { profiles := .ofList [("addr-1", { givenNames := some "Asha", yearOfBirth := some (-1) })] }

theorem view_shows_stored_resident : ∃ machine, Menu.profile.machine 2024 = .ok machine ∧
    let turn (b : Backends) := Interpreter.step { machine } .epoch "enteringProfileViewPin" resident
      { kind := .transit, input := "1234" } b
    let outage : Backends := { residentProfiles with profiles := { residentProfiles.profiles with down := true } }
    ((turn residentProfiles).state = "displayingProfile" ∧
      (turn residentProfiles).context.user.identity =
        some { id := 1, profile := { givenNames := some "Asha", yearOfBirth := some (-1) } }) ∧
    ((turn residentBackends).state = "displayingProfile" ∧
      (turn residentBackends).context.user.identity = some { id := 1 }) ∧
    (turn outage).state ≠ "displayingProfile" := by
  obtain ⟨-, machine, made, turns⟩ := view_shows_stored 2024
  refine ⟨machine, made, ?_⟩
  intro turn outage
  let pin : Event := { kind := .transit, input := "1234" }
  have opens : Opens resident "1234" residentBackends := ⟨rfl, rfl, _, rfl, rfl, rfl⟩
  obtain ⟨displays, shows, -⟩ := turns ServiceError.classify .epoch resident pin residentProfiles rfl
  obtain ⟨displaysNew, showsNew, -⟩ := turns ServiceError.classify .epoch resident pin residentBackends rfl
  obtain ⟨fails, -, -⟩ := turns ServiceError.classify .epoch resident pin outage rfl
  have known := displays.2 ⟨⟨opens.up, opens.active, opens.account⟩, rfl⟩
  have unknown := displaysNew.2 ⟨opens, rfl⟩
  have refused : (turn outage).state ≠ "displayingProfile" := fails.not.2 fun able => nomatch able.2
  refine ⟨⟨known, ?_⟩, ⟨unknown, ?_⟩, refused⟩
  · exact congrArg (·.user.identity) (shows known)
  · exact congrArg (·.user.identity) (showsNew unknown)

end ProfileMenu

end DialMenu.Menus
