import DialMenu.Proofs.Menus.Protection

/-!
The PIN gate of the menus. What a menu protects, in the backends and in the context, changes only in a turn that
starts in one of its PIN entries with the right PIN, and only for the account of the context.
-/

namespace DialMenu.Menus

theorem user_updateErrorMessages (s : Subscriber) (event : Event) : (updateErrorMessages s event).user = s.user := by
  unfold updateErrorMessages
  split <;> rfl

/-- Keeping a rejection is the only action that the menus share. -/
theorem sharedBindings_reserves (reserved : List String) : sharedBindings.Reserves reserved Subscriber.user := by
  have options : optionBindings.Reserves reserved Subscriber.user :=
    ⟨fun _ _ => rfl, fun _ _ _ bound => nomatch bound⟩
  exact ((options.withGuard _).withGuard _).withAction fun _ => user_updateErrorMessages

namespace Menu

/-- Before the confirmation every action leaves the user as it is. -/
theorem reserves (year : Int) (menu : Menu) : (menu.bindings year).Reserves menu.confirmations Subscriber.user := by
  have shared := sharedBindings_reserves menu.confirmations
  have confirming {name : String} {P : Prop} (mem : name ∈ menu.confirmations) (free : name ∉ menu.confirmations) :
      P := absurd mem free
  cases menu with
  | languages | guardians =>
    refine .withService (.withAction (.withAction ?_ ?_) ?_) _
    · -- the guards that a menu binds do not show in its actions
      exact ⟨shared.feedback, shared.action⟩
    · exact fun _ _ _ => rfl
    · exact confirming (by decide)
  | profile =>
    refine .withService (.withService (.withAction (.withAction (.withAction (.withAction (.withAction (.withAction
      (.withAction ?_ ?_) ?_) ?_) ?_) ?_) ?_) ?_) _) _
    · exact ⟨shared.feedback, shared.action⟩
    iterate 5 exact fun _ _ _ => rfl
    iterate 2 exact confirming (by decide)

/-- A turn leaves the backends and the user alone, or it came forward from a PIN entry and did one protected change:
then the backends are as the change left them, and if that was rejected the user is as before. -/
theorem step_protection {year : Int} {menu : Menu} {machine : Machine Subscriber Backends}
    (made : menu.machine year = .ok machine) (classify : ServiceError → Failure) (now : Instant) (state : String)
    (s : Subscriber) (event : Event) (b : Backends) :
    let rest := Interpreter.step { machine, classify } now state s event b
    (rest.env = b ∧ rest.context.user = s.user) ∨
      (event.kind = .transit ∧ state ∈ menu.pinStates ∧ ∃ protection : Protection,
        let answer := withPin protection.work (Context.setFeedback none s) event b
        rest.env = answer.env ∧ ∀ err, answer.result = .error err → rest.context.user = s.user) := by
  intro rest
  have compiled := (Bindings.wellFormed_of_resolve made).2
  rcases Interpreter.step_calledOnce { machine, classify } menu.protects.gated compiled (menu.reserves year) now state
    s event b with unchanged | called
  · exact .inl unchanged
  · obtain ⟨through, found, calls, left, kept⟩ := called
    obtain ⟨protection, -, -, service, -, -⟩ := exists_calls compiled found calls
    rw [service] at left kept
    exact .inr ⟨through.forward, through.gate, protection, left, kept⟩

/-- A turn of a menu moves a record of a feature or the user in the context only with the right PIN: the event comes
forward in one of the menu's PIN entries, and its input opens the context's account. Records other than those of the
context stay as they are in any turn. -/
theorem opens_of_changed (year : Int) (menu : Menu) : ∃ machine, menu.machine year = .ok machine ∧
    ∀ (classify : ServiceError → Failure) (now : Instant) (state : String) (s : Subscriber) (event : Event)
      (b : Backends),
      let rest := Interpreter.step { machine, classify } now state s event b
      Spares s b rest.env ∧
        (rest.env.featureRecords ≠ b.featureRecords ∨ rest.context.user ≠ s.user →
          event.kind = .transit ∧ state ∈ menu.pinStates ∧ Opens s event.input b) := by
  obtain ⟨machine, made⟩ := menu.exists_machine year
  refine ⟨machine, made, fun classify now state s event b => ?_⟩
  intro rest
  rcases step_protection made classify now state s event b with
    ⟨sameEnv, sameUser⟩ | ⟨forward, gate, protection, left, kept⟩
  · rw [show rest.env = b from sameEnv, show rest.context.user = s.user from sameUser]
    exact ⟨.refl s b, fun changed => absurd changed (by simp)⟩
  · obtain ⟨spared, opens⟩ := withPin_guards protection.reach (Context.setFeedback none s) event b
    rw [← left] at spared opens
    refine ⟨⟨spared.account, spared.wards, spared.profile, spared.cachedLanguage, spared.cachedGuardians⟩,
      fun changed => ?_⟩
    rcases opens with ⟨up, active, account⟩ | ⟨sameRecords, err, rejected⟩
    · exact ⟨forward, gate, up, active, account⟩
    · have sameUser := kept err rejected
      exact absurd changed (by simp [rest, sameRecords, sameUser])

/-- A user who selected Swahili and has to confirm it with the PIN 1234. -/
def swahiliSelected : Subscriber :=
  { user := { account := { phone := "+254700000001", language := "eng" } }, pending := { language := some "swa" } }

def swahiliBackends : Backends := { accounts := AccountStore.insert {} "+254700000001" "1234" "eng" }

theorem opens_of_changed_swahili : ∃ machine, Menu.languages.machine 2024 = .ok machine ∧
    let event : Event := { kind := .transit, input := "1234" }
    let rest := Interpreter.step { machine } .epoch "enteringPin" swahiliSelected event swahiliBackends
    rest.state = "changeSuccess" ∧ rest.context.user ≠ swahiliSelected.user ∧
      rest.env.accounts.language? "+254700000001" = some "swa" ∧ Spares swahiliSelected swahiliBackends rest.env ∧
      Opens swahiliSelected "1234" swahiliBackends := by
  obtain ⟨machine, made, turns⟩ := opens_of_changed 2024 .languages
  refine ⟨machine, made, ?_⟩
  intro event rest
  have changed : ∀ m, Menu.languages.machine 2024 = .ok m →
      let rest := Interpreter.step { machine := m } .epoch "enteringPin" swahiliSelected event swahiliBackends
      rest.state = "changeSuccess" ∧ rest.context.user ≠ swahiliSelected.user ∧
        rest.env.accounts.language? "+254700000001" = some "swa" := by
    intro m same
    cases same
    decide +kernel
  obtain ⟨state, user, language⟩ := changed machine made
  obtain ⟨spared, opens⟩ := turns ServiceError.classify .epoch "enteringPin" swahiliSelected event swahiliBackends
  exact ⟨state, user, language, spared, (opens (.inr user)).2.2⟩

end Menu

end DialMenu.Menus
