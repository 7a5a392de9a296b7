import DialMenu.Proofs.Menus.ProfileEdits

/-!
Which fields the profile menu asks for. A page looks for the one field that the next page asks for, and for none behind
it; the option that a conversation begins with decides which pages it sees at all. So the menu comes to the PIN with a
complete profile, whatever is typed, only where the profile was complete from the beginning.
-/

namespace DialMenu.Menus.ProfileMenu

/-- There is every field that the menu asks for by itself. -/
structure Complete (profile : Profile) : Prop where
  gender : profile.gender.isSome = true
  yearOfBirth : profile.yearOfBirth.isSome = true
  location : profile.location.isSome = true

/-- The pages that may lead to the entry of the PIN. -/
def questions : List String := ["enteringFamilyName", "selectingGender", "enteringYOB", "enteringLocation"]

/-- In a conversation that begins with `s`, no page leads to the entry of the PIN while a field is missing. -/
def AsksForMissing (s : Subscriber) : Prop :=
  ∀ (year later : Int) (state : String) (t : Subscriber) (machine : Machine Subscriber Backends),
    Menu.profile.Visits s year state t → year ≤ later → Menu.profile.machine later = .ok machine →
    ∀ (classify : ServiceError → Failure) (now : Instant) (event : Event) (b : Backends),
      state ∈ questions → event.kind = .transit →
      let rest := Interpreter.step { machine, classify } now state t event b
      rest.state = "enteringProfileChangePin" → Complete rest.context.shownProfile

section Complete

variable {year : Int} {t t' : Subscriber} {event : Event}

theorem shownProfile_congr (user : t'.user = t.user) (pending : t'.pending = t.pending) :
    t'.shownProfile = t.shownProfile := by
  rw [Subscriber.shownProfile, Subscriber.shownProfile, user, pending]

/-- The change that is confirmed shows as it did before. -/
theorem shownProfile_applyChange (t : Subscriber) (event : Event) :
    (applyChange t event).shownProfile = t.shownProfile := by
  unfold Subscriber.shownProfile applyChange User.profile?
  cases t.user.identity <;> rfl

/-- No page takes a field away. -/
theorem Complete.of_saves (complete : Complete t.shownProfile) (saved : Saves year t event t') :
    Complete t'.shownProfile := by
  obtain ⟨gender, yearOfBirth, location⟩ := complete
  cases saved with
  | givenNames | familyName => exact ⟨gender, yearOfBirth, location⟩
  | gender accepted =>
    have shown : (saveGender t event).shownProfile.gender = (gender? event.input).or _ := rfl
    exact ⟨by rw [shown, Option.isSome_or, accepted, Bool.true_or], yearOfBirth, location⟩
  | yearOfBirth accepted =>
    obtain ⟨born, read, -⟩ := exists_year accepted
    have shown : (saveYear t event).shownProfile.yearOfBirth = (year? event.input).or _ := rfl
    exact ⟨gender, by rw [shown, read]; rfl, location⟩
  | location => exact ⟨gender, yearOfBirth, rfl⟩

theorem takes_complete (year : Int) :
    Change.profile.Takes year (fun t => Complete t.shownProfile) fun _ => True :=
  takes_of_saves (fun _ _ user pending complete => shownProfile_congr user pending ▸ complete)
    (fun _ _ _ _ filled => filled) fun _ _ _ saved complete => ⟨complete.of_saves saved, trivial⟩

/-- A profile that was loaded is displayed, and nothing leads on from there. -/
theorem displays_loaded : ∀ e ∈ Menu.profile.definition.states.entries, ∀ route ∈ e.2.routes,
    e.1 ≠ "displayingProfile" ∧
      (route.actions = ["savePersonalInformation"] → route.target = "displayingProfile") := by
  decide +kernel

/-- Once nothing is missing, nothing is ever missing again, unless a profile is loaded, and then the conversation is
over. -/
theorem maintains_complete (year : Int) : (Menu.profile.bindings year).Maintains Menu.profile.definition
    fun id t => id = "displayingProfile" ∨ Complete t.shownProfile where
  feedback _ _ _ holds := holds
  route id source declared route mem judged t event same holds admitted := by
    obtain ⟨elsewhere, loads⟩ := displays_loaded (id, source) ((Table.mem_entries_iff _ _ _).2 declared) route mem
    have complete : Complete t.shownProfile := holds.resolve_left elsewhere
    rcases (takes_complete year).route declared mem same complete (fun _ => trivial) admitted with
      ⟨kept, -⟩ | ⟨name, confirms, acts, -⟩
    · exact .inr kept
    · rcases List.mem_pair.1 confirms with rfl | rfl
      · have bound : (Menu.profile.bindings year).action "applyProfileChange" =
            some ⟨"applyProfileChange", applyChange⟩ := rfl
        rw [acts, Bindings.perform_singleton bound]
        exact .inr ((shownProfile_applyChange t event).symm ▸ complete)
      · exact .inl (loads acts)

end Complete

section Runs

/-- The pages on the shortest ways to the entry of the PIN, with their candidates. -/
def shortcuts : List (String × List Route) := [
  ("profileMenu", [
    { target := "enteringGivenNames", guard := some "isOption1" },
    { target := "selectingGender", guard := some "isOption2" },
    { target := "enteringYOB", guard := some "isOption3" },
    { target := "enteringLocation", guard := some "isOption4" },
    { target := "enteringProfileViewPin", guard := some "isOption5" }]),
  ("enteringGivenNames", [
    { target := "enteringFamilyName", guard := some "isValidName", actions := ["saveGivenNames"] },
    { target := "invalidName" }]),
  ("enteringFamilyName", [
    { target := "selectingGender", guard := some "isValidNameGenderAbsent", actions := ["saveFamilyName"] },
    { target := "enteringProfileChangePin", guard := some "isValidName", actions := ["saveFamilyName"] },
    { target := "invalidName" }]),
  ("enteringLocation", [
    { target := "enteringProfileChangePin", guard := some "isValidLocation", actions := ["saveLocation"] },
    { target := "invalidLocationEntry" }])]

theorem candidates_shortcuts : ∀ page ∈ shortcuts,
    (Menu.profile.definition.state? page.1).map (·.candidates .transit) = some page.2 := by
  decide +kernel

theorem settles_shortcuts : ∀ id ∈ ["enteringGivenNames", "enteringFamilyName", "enteringLocation",
    "enteringProfileChangePin"], Menu.profile.Settles id false := by
  decide +kernel

variable {s t : Subscriber} {year : Int} {state : String} {event : Event} {route : Route}

theorem taken_of_shortcut {routes : List Route} (page : (state, routes) ∈ shortcuts) (forward : event.kind = .transit)
    (first : (routes.find? fun route => (Menu.profile.bindings year).admits route.guard t event) = some route) :
    Menu.profile.taken? year state t event = some route := by
  have declared : (Menu.profile.definition.state? state).map (·.candidates event.kind) = some routes := by
    rw [forward]
    exact candidates_shortcuts (state, routes) page
  exact (Menu.taken?_eq declared).trans first

/-- What the promise says of a page whose candidate leads to the entry of the PIN. -/
theorem AsksForMissing.complete (asks : AsksForMissing s) (visits : Menu.profile.Visits s year state t)
    (page : state ∈ questions) (forward : event.kind = .transit)
    (taken : Menu.profile.taken? year state t event = some route)
    (target : route.target = "enteringProfileChangePin") :
    Complete ((Menu.profile.bindings year).perform route.actions (Context.setFeedback none t) event).shownProfile := by
  obtain ⟨machine, made⟩ := Menu.profile.exists_machine year
  have settles : Menu.profile.Settles route.target false := settles_shortcuts _ (by simp [target])
  have turn : Interpreter.step { machine } .epoch state t event ({} : Backends) = _ :=
    Menu.step_of_settles made taken settles
  have complete := asks year year state t machine visits (Int.le_refl year) made ServiceError.classify .epoch event {}
    page forward
  rw [turn] at complete
  exact complete target

/-- A location that is entered is followed by no question. -/
theorem AsksForMissing.of_location (asks : AsksForMissing s) :
    s.shownProfile.gender.isSome = true ∧ s.shownProfile.yearOfBirth.isSome = true := by
  have start : Menu.profile.Visits s 2024 "profileMenu" s := .start 2024
  have option : Menu.profile.taken? 2024 "profileMenu" s { kind := .transit, input := "4" } =
      some { target := "enteringLocation", guard := some "isOption4" } :=
    taken_of_shortcut (.head _) rfl rfl
  have asked := start.onward option (settles_shortcuts _ (by simp))
  have answer : Menu.profile.taken? 2024 "enteringLocation" (Context.setFeedback none s)
      { kind := .transit, input := "Nairobi" } = some
        { target := "enteringProfileChangePin", guard := some "isValidLocation", actions := ["saveLocation"] } :=
    taken_of_shortcut (.tail _ (.tail _ (.tail _ (.head _)))) rfl rfl
  have complete := asks.complete asked (by decide) rfl answer rfl
  exact ⟨complete.gender, complete.yearOfBirth⟩

/-- Names that are entered are followed by no question where the gender is known. -/
theorem AsksForMissing.of_names (asks : AsksForMissing s) (known : lacks Profile.gender s = false) :
    s.shownProfile.location.isSome = true := by
  have start : Menu.profile.Visits s 2024 "profileMenu" s := .start 2024
  have option : Menu.profile.taken? 2024 "profileMenu" s { kind := .transit, input := "1" } =
      some { target := "enteringGivenNames", guard := some "isOption1" } :=
    taken_of_shortcut (.head _) rfl rfl
  have asked := start.onward option (settles_shortcuts _ (by simp))
  have given : Menu.profile.taken? 2024 "enteringGivenNames" (Context.setFeedback none s)
      { kind := .transit, input := "John" } = some
        { target := "enteringFamilyName", guard := some "isValidName", actions := ["saveGivenNames"] } :=
    taken_of_shortcut (.tail _ (.head _)) rfl rfl
  have continued := asked.onward given (settles_shortcuts _ (by simp))
  have family {t : Subscriber} (known : lacks Profile.gender t = false) :
      Menu.profile.taken? 2024 "enteringFamilyName" t { kind := .transit, input := "Doe" } = some
        { target := "enteringProfileChangePin", guard := some "isValidName", actions := ["saveFamilyName"] } := by
    have looks : (Menu.profile.bindings 2024).admits (some "isValidNameGenderAbsent") t
        { kind := .transit, input := "Doe" } = lacks Profile.gender t := rfl
    refine taken_of_shortcut (.tail _ (.tail _ (.head _))) rfl ?_
    rw [List.find?_cons_of_neg (by simp [looks, known])]
    rfl
  have complete := asks.complete continued (by decide) rfl (family known) rfl
  exact complete.location

end Runs

/-- The menu asks for all that is missing, in every conversation that begins without pending edits, exactly if nothing
is missing from the beginning. -/
theorem asksForMissing_iff {s : Subscriber} (idle : s.pending.profile = {}) :
    AsksForMissing s ↔ Complete s.shownProfile := by
  constructor
  · intro asks
    obtain ⟨gender, yearOfBirth⟩ := asks.of_location
    have known : lacks Profile.gender s = false := by
      rw [Subscriber.shownProfile, idle] at gender
      unfold lacks
      cases stored : s.user.profile? with
      | none => simp [stored, Profile.merged] at gender
      | some profile => simpa [stored, Profile.merged] using gender
    exact ⟨gender, yearOfBirth, asks.of_names known⟩
  · intro complete year later state t machine visits passes made classify now event b _ _ rest arrives
    have before : state = "displayingProfile" ∨ Complete t.shownProfile :=
      visits.maintained maintains_complete (fun _ _ _ _ _ kept => kept) fun _ => .inr complete
    have after := Interpreter.maintains_step { machine, classify } (Bindings.wellFormed_of_resolve made).2
      (maintains_complete later) now event b before
    rcases after with displayed | complete
    · exact absurd (displayed.symm.trans arrives) (by decide)
    · exact complete

/-- A user of whom nothing is known is not asked for everything, and the resident has nothing to be asked for. -/
theorem asksForMissing_iff_resident : ¬ AsksForMissing {} ∧ AsksForMissing resident := by
  have unknown : ¬ Complete (Subscriber.shownProfile {}) := fun complete => nomatch complete.gender
  have known : Complete resident.shownProfile := ⟨rfl, rfl, rfl⟩
  exact ⟨(asksForMissing_iff rfl).not.2 unknown, (asksForMissing_iff rfl).2 known⟩

end DialMenu.Menus.ProfileMenu
