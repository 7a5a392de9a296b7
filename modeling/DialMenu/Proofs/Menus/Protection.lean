import DialMenu.Menus.Board
import DialMenu.Proofs.Interpreter.Entrance
import DialMenu.Proofs.Menus.PinCheck

/-!
What the menus protect by the PIN: for each protected change the state that asks for the PIN, the state that calls its
service, and the work that the service does behind the check.
-/

namespace DialMenu.Menus

/-- A protected change. Its work reaches no records but those of the context, and either succeeds or is rejected with
the code of the change. -/
structure Protection where
  entry : String
  call : String
  service : String
  work : Subscriber → Backends → Except ServiceError Value × Backends
  code : String
  /-- The guard that tests for the code. -/
  guard : String
  reach : ∀ s b, Spares s b (work s b).2
  answers : ∀ s b, (∃ value, (work s b).1 = .ok value ∧ value.IsSuccess) ∨
    ∃ message, (work s b).1 = .error (.machine code message)

section Backends

variable (s : Subscriber) (b : Backends)

theorem Languages.backends_changeLanguage : (changeLanguage s b).2 =
    match s.pending.language with
    | none => b
    | some language => (b.updateLanguage s.phone language).2 := by
  unfold changeLanguage
  cases s.pending.language with
  | none => rfl
  | some language =>
    dsimp only
    generalize b.updateLanguage s.phone language = outcome
    rcases outcome with ⟨_ | _, b'⟩ <;> rfl

theorem ProfileMenu.backends_changeProfile :
    (changeProfile s b).2 = (b.upsertProfile s.user.account.address s.pending.profile).2 := by
  unfold changeProfile
  generalize b.upsertProfile s.user.account.address s.pending.profile = outcome
  rcases outcome with ⟨_ | _, b'⟩ <;> rfl

theorem ProfileMenu.backends_loadProfile : (loadProfile s b).2 = b := by
  unfold loadProfile
  cases b.profiles.profile? s.user.account.address <;> rfl

theorem Guardians.backends_addGuardian : (addGuardian s b).2 =
    match s.pending.guardian with
    | none => b
    | some guardian => (b.storeGuardian guardian s.phone).2 := by
  unfold addGuardian
  cases s.pending.guardian with
  | none => rfl
  | some guardian =>
    dsimp only
    generalize b.storeGuardian guardian s.phone = outcome
    rcases outcome with ⟨_ | _, b'⟩ <;> rfl

end Backends

namespace Protection

def language : Protection where
  entry := "enteringPin"
  call := "authorizingLanguageChange"
  service := "initiateLanguageChange"
  work := Languages.changeLanguage
  code := Languages.changeErrorCode
  guard := "isChangeError"
  reach s b := by
    rw [Languages.backends_changeLanguage]
    split
    · exact .refl s b
    · exact spares_updateLanguage s b _
  answers s b := by
    unfold Languages.changeLanguage
    cases s.pending.language with
    | none => exact .inr ⟨_, rfl⟩
    | some language =>
      dsimp only
      rcases b.updateLanguage s.phone language with ⟨_ | _, b'⟩
      · exact .inr ⟨_, rfl⟩
      · exact .inl ⟨.success, rfl, by decide⟩

def profileChange : Protection where
  entry := "enteringProfileChangePin"
  call := "authorizingProfileChange"
  service := "initiateProfileChange"
  work := ProfileMenu.changeProfile
  code := ProfileMenu.changeErrorCode
  guard := "isChangeError"
  reach s b := by
    rw [ProfileMenu.backends_changeProfile]
    exact spares_upsertProfile s b _
  answers s b := by
    unfold ProfileMenu.changeProfile
    rcases b.upsertProfile s.user.account.address s.pending.profile with ⟨_ | _, b'⟩
    · exact .inr ⟨_, rfl⟩
    · exact .inl ⟨.success, rfl, by decide⟩

def profileView : Protection where
  entry := "enteringProfileViewPin"
  call := "authorizingProfileView"
  service := "loadPersonalInformation"
  work := ProfileMenu.loadProfile
  code := ProfileMenu.loadErrorCode
  guard := "isLoadError"
  reach s b := by
    rw [ProfileMenu.backends_loadProfile]
    exact .refl s b
  answers s b := by
    unfold ProfileMenu.loadProfile
    cases b.profiles.profile? s.user.account.address with
    | error err => exact .inr ⟨_, rfl⟩
    | ok profile =>
      have before : compare "personal_information" "success" = .lt := by decide +kernel
      refine .inl ⟨_, rfl, ?_⟩
      simp [Value.IsSuccess, Value.ofEntries, Value.get?, Value.asBool, Entries.ofList, Entries.insert, Entries.get?,
        before]

def guardian : Protection where
  entry := "enteringAddGuardianPin"
  call := "addingGuardian"
  service := "addGuardian"
  work := Guardians.addGuardian
  code := Guardians.additionErrorCode
  guard := "isGuardianAdditionError"
  reach s b := by
    rw [Guardians.backends_addGuardian]
    cases entered : s.pending.guardian with
    | none => exact .refl s b
    | some guardian => exact spares_storeGuardian s b entered
  answers s b := by
    unfold Guardians.addGuardian
    cases s.pending.guardian with
    | none => exact .inr ⟨_, rfl⟩
    | some guardian =>
      dsimp only
      rcases b.storeGuardian guardian s.phone with ⟨_ | _, b'⟩
      · exact .inr ⟨_, rfl⟩
      · exact .inl ⟨.success, rfl, by decide⟩

end Protection

namespace Menu

def protections : Menu → List Protection
  | languages => [.language]
  | profile => [.profileChange, .profileView]
  | guardians => [.guardian]

/-- The states in which a menu asks for the PIN. -/
def pinStates (menu : Menu) : List String := menu.protections.map Protection.entry

/-- The actions that take over what a service did or answered. -/
def confirmations : Menu → List String
  | languages => ["saveAccountLanguage"]
  | profile => ["applyProfileChange", "savePersonalInformation"]
  | guardians => ["recordGuardian"]

/-- A profile's status is looked at only behind the PIN entry, by its services. -/
def asksStatus : Menu → Bool
  | languages | guardians => true
  | profile => false

/-- The candidates for the PIN that is entered. -/
def pinRoutes (menu : Menu) (protection : Protection) : List Route :=
  (if menu.asksStatus then [{ target := "accountBlocked", guard := some "isBlocked" }] else []) ++
    [{ target := protection.call }]

/-- What a menu declares for a protected change: the candidates for its PIN, and behind them the call of its service,
with a candidate for success and for each kind of rejection. -/
structure Declares (menu : Menu) (protection : Protection) : Prop where
  entry : (menu.definition.state? protection.entry).map (·.candidates .transit) = some (menu.pinRoutes protection)
  call : ∃ call ∈ (menu.definition.state? protection.call).bind Definition.State.call,
    call.service = protection.service ∧ call.onDone.map Route.guard = [some "isSuccess"] ∧
      (call.onError.map Route.guard).Perm [some "isBlocked", some "isInvalidPin", some protection.guard]

/-- The services of a menu are entered from its PIN entries alone and confirmed only by their success, and they are
those of its protected changes. -/
structure Protects (menu : Menu) : Prop where
  gated : menu.definition.Gated menu.pinStates menu.confirmations
  calls : ∀ e ∈ menu.definition.states.entries, e.2.call.isSome = true → e.1 ∈ menu.protections.map Protection.call
  declares : ∀ protection ∈ menu.protections, menu.Declares protection

instance (menu : Menu) (protection : Protection) : Decidable (menu.Declares protection) :=
  decidable_of_iff (_ ∧ _) ⟨fun ⟨entry, call⟩ => ⟨entry, call⟩, fun declares => ⟨declares.entry, declares.call⟩⟩

instance (menu : Menu) : Decidable menu.Protects :=
  decidable_of_iff (_ ∧ _ ∧ _) ⟨fun ⟨gated, calls, declares⟩ => ⟨gated, calls, declares⟩,
    fun protects => ⟨protects.gated, protects.calls, protects.declares⟩⟩

theorem protects (menu : Menu) : menu.Protects := by
  cases menu <;> decide +kernel

/-- What a protected change finds bound under its names. -/
structure Binds (menu : Menu) (year : Int) (protection : Protection) : Prop where
  service : (menu.bindings year).service protection.service = some (withPin protection.work)
  code : (menu.bindings year).guard protection.guard = some ⟨protection.guard, hasCode protection.code⟩

theorem binds (year : Int) {menu : Menu} : ∀ protection ∈ menu.protections, menu.Binds year protection := by
  cases menu with
  | languages | guardians =>
    rw [protections, List.forall_mem_singleton]
    exact ⟨rfl, rfl⟩
  | profile =>
    rw [protections, List.forall_mem_cons, List.forall_mem_singleton]
    exact ⟨⟨rfl, rfl⟩, ⟨rfl, rfl⟩⟩

variable {year : Int} {menu : Menu} {machine : Machine Subscriber Backends}

/-- The state of a protected change calls work behind the PIN check, with candidates for its outcomes. -/
structure Calls (menu : Menu) (year : Int) (protection : Protection) (call : Invocation Subscriber Backends) :
    Prop where
  service : call.service = withPin protection.work
  onDone : ∃ routes, List.Forall₂ (Route.Compiled (menu.bindings year)) routes call.onDone ∧
    routes.map Route.guard = [some "isSuccess"]
  onError : ∃ routes, List.Forall₂ (Route.Compiled (menu.bindings year)) routes call.onError ∧
    (routes.map Route.guard).Perm [some "isBlocked", some "isInvalidPin", some protection.guard]

theorem exists_call (compiled : (menu.bindings year).compile menu.definition = .ok machine) {protection : Protection}
    (mem : protection ∈ menu.protections) :
    ∃ stopped call, machine.state? protection.call = some stopped ∧ stopped.call = some call ∧
      menu.Calls year protection call := by
  obtain ⟨spec, there, name, onDone, onError⟩ := (menu.protects.declares protection mem).call
  obtain ⟨source, declared, declaredCall⟩ := Option.bind_eq_some_iff.1 there
  obtain ⟨stopped, found, same⟩ := Bindings.exists_compiled compiled declared
  obtain ⟨call, calls, sameCall⟩ := same.exists_invocation declaredCall
  have bound := (binds year protection mem).service
  rw [← name, sameCall.service] at bound
  exact ⟨stopped, call, found, calls, Option.some.inj bound, ⟨_, sameCall.onDone, onDone⟩,
    ⟨_, sameCall.onError, onError⟩⟩

/-- Whatever a menu calls is a protected change. -/
theorem exists_calls (compiled : (menu.bindings year).compile menu.definition = .ok machine) {id : String}
    {state : Machine.State Subscriber Backends} {call : Invocation Subscriber Backends}
    (found : machine.state? id = some state) (calls : state.call = some call) :
    ∃ protection ∈ menu.protections, protection.call = id ∧ menu.Calls year protection call := by
  obtain ⟨source, declared, same⟩ := Bindings.exists_declared compiled found
  have calling : source.call.isSome = true := by rw [← same.isSome_call, calls]; rfl
  obtain ⟨protection, mem, rfl⟩ := List.mem_map.1
    (menu.protects.calls (id, source) ((Table.mem_entries_iff _ _ _).2 declared) calling)
  obtain ⟨stopped, call', found', calls', here⟩ := exists_call compiled mem
  cases Option.some.inj (found.symm.trans found')
  cases Option.some.inj (calls.symm.trans calls')
  exact ⟨protection, mem, rfl, here⟩

/-- Every menu has its machine, in any year. -/
theorem exists_machine (year : Int) (menu : Menu) : ∃ machine, menu.machine year = .ok machine := by
  have made : (menu.machine year).isOk = true := by cases menu <;> rfl
  cases built : menu.machine year with
  | ok machine => exact ⟨machine, rfl⟩
  | error err =>
    rw [built] at made
    cases made

end Menu

end DialMenu.Menus
