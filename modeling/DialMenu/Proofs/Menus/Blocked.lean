import DialMenu.Proofs.Interpreter.Bounds
import DialMenu.Proofs.Menus.PinTurn

/-!
A blocked account stops every menu. The candidate for it comes first among those for a rejection, so that no code of a
failure can lead elsewhere; and the PIN check rejects the account whatever PIN is entered, and writes nothing.
-/

namespace DialMenu.Menus

/-- An account that is blocked, in the context or in the store, is rejected before anything is written. -/
theorem validatePin_of_blocked {s : Subscriber} {b : Backends}
    (blocked : s.isBlocked = true ∨ b.accounts.down = false ∧ b.accounts.isBlocked s.phone = true) (pin : String) :
    validatePin s pin b = (.error .accountBlocked, b) := by
  unfold validatePin
  by_cases known : s.isBlocked = true
  · rw [if_pos known]
  · obtain ⟨up, locked⟩ := blocked.resolve_left known
    obtain ⟨record, found, locked⟩ := (Option.any_eq_true _ _).1 locked
    have judged : record.judge pin = (.blocked, record) := by rw [AccountRecord.judge, if_pos locked]
    have left : b.accounts.verifyPin s.phone pin = (.ok .blocked, b.accounts) := by
      rw [AccountStore.verifyPin, if_neg (by simp [up])]
      simp only [found, judged, Table.insert_eq_self found]
    simp only [if_neg known, Backends.verifyPin, left]

/-- A failure that shows a blocked account is taken for nothing else. -/
theorem Sequel.rejected_of_blocked (sequel : Sequel) (now : Instant) {s : Subscriber} {failure : Failure}
    (b : Backends) (blocked : failure.blocked = true ∨ s.isBlocked = true) :
    let rest := sequel.rejected now s failure b
    rest.state = "accountBlocked" ∧ rest.disposition = .finished ∧ rest.env = b := by
  intro rest
  have shown : sequel.protection.shows s failure .blocked = true := by
    simpa [Protection.shows, or_comm] using blocked
  have taken : sequel.rejection? s failure = some .blocked := List.find?_cons_of_pos shown
  simp [rest, Sequel.rejected, taken, Sequel.target]

namespace Menu

variable {year : Int} {menu : Menu} {machine : Machine Subscriber Backends} {sequel : Sequel}
  {classify : ServiceError → Failure} {now : Instant} {state : String} {s : Subscriber} {event : Event} {b : Backends}

/-- A service that is called answers a keystroke forward in a PIN entry, and the turn rests where its answer leads. -/
theorem rest_of_logged (made : menu.machine year = .ok machine) {logged : LoggedCall}
    (inside : logged ∈ ((Interpreter.mk machine classify).logged.step now state s event (b, [])).env.2) :
    ∃ (sequel : Sequel) (answer : Answer Backends), answer.result = logged.result ∧
      Interpreter.step { machine, classify } now state s event b =
        sequel.rest now (Context.setFeedback none s) classify answer := by
  have compiled := (Bindings.wellFormed_of_resolve made).2
  have blind : (menu.bindings year).Reserves menu.confirmations fun _ => () := ⟨fun _ _ => rfl, fun _ _ _ _ _ _ => rfl⟩
  obtain ⟨hops, p, stopped, walk, found, here⟩ := Interpreter.made_of_logged inside
  obtain ⟨call, calls, answered⟩ := here.answer
  obtain ⟨source, declared, same⟩ := Bindings.exists_declared compiled found
  have calling : menu.definition.calls p.state = true :=
    Definition.calls_of_declared declared (by rw [← same.isSome_call, calls]; rfl)
  cases walk.standing menu.protects.gated compiled blind with
  | behind _ silent =>
    rw [silent] at calling
    cases calling
  | before sameEnv _ entered =>
    obtain ⟨through, cleared⟩ := entered calling
    obtain ⟨forward, protection, known, rfl, target⟩ := (throughGate_iff compiled).1 through
    obtain ⟨sequel, mem, rfl⟩ := exists_sequel known
    have onward : ¬ (menu.asksStatus = true ∧ isBlocked s event = true) := by
      intro stops
      obtain ⟨protection, known, away, -⟩ := exists_calls compiled found calls
      rw [afterPin, if_pos stops] at target
      exact call_ne_accountBlocked known (away.trans target.symm)
    rw [afterPin, if_neg onward] at target
    obtain ⟨stopped', call', serves⟩ := exists_serves made mem
    cases Option.some.inj ((target ▸ serves.found).symm.trans found)
    cases Option.some.inj (serves.calls.symm.trans calls)
    refine ⟨sequel, call.service p.context event p.env, answered, ?_⟩
    rw [step_pin made mem classify now s forward b, pinTurn, if_neg onward, serves.service, cleared, sameEnv]

/-- Blocked always wins: a turn in which the service is rejected for a blocked account, or with the account blocked in
the context, ends for the blocked account, whatever code the classifier gives. And no PIN leads a blocked account
further than to this end, or changes a record. -/
theorem blocked_wins (year : Int) (menu : Menu) : ∃ machine, menu.machine year = .ok machine ∧
    (∀ (classify : ServiceError → Failure) (now : Instant) (state : String) (s : Subscriber) (event : Event)
      (b : Backends) (id : String) (err : ServiceError),
      ⟨id, .error err⟩ ∈ ((Interpreter.mk machine classify).logged.step now state s event (b, [])).env.2 →
      (classify err).blocked = true ∨ s.isBlocked = true →
      let rest := Interpreter.step { machine, classify } now state s event b
      rest.state = "accountBlocked" ∧ rest.disposition = .finished) ∧
    ∀ (now : Instant) (state : String) (s : Subscriber) (event : Event) (b : Backends),
      event.kind = .transit → state ∈ menu.pinStates →
      s.isBlocked = true ∨ b.accounts.down = false ∧ b.accounts.isBlocked s.phone = true →
      let rest := Interpreter.step { machine } now state s event b
      rest.state = "accountBlocked" ∧ rest.disposition = .finished ∧ rest.env = b := by
  obtain ⟨machine, made⟩ := menu.exists_machine year
  refine ⟨machine, made, ?_, ?_⟩
  · intro classify now state s event b id err mem blocked rest
    obtain ⟨sequel, answer, rejected, rests⟩ := rest_of_logged made mem
    have cleared : (classify err).blocked = true ∨ (Context.setFeedback none s : Subscriber).isBlocked = true := blocked
    obtain ⟨stops, finished, -⟩ := sequel.rejected_of_blocked now answer.env cleared
    rw [Sequel.rest, rejected] at rests
    rw [show rest = _ from rests]
    exact ⟨stops, finished⟩
  · intro now state s event b forward gate blocked rest
    obtain ⟨protection, known, rfl⟩ := List.mem_map.1 gate
    obtain ⟨sequel, mem, rfl⟩ := exists_sequel known
    have turn : rest = menu.pinTurn sequel ServiceError.classify now s event b := step_pin made mem _ now s forward b
    rw [turn, pinTurn]
    by_cases stops : menu.asksStatus = true ∧ isBlocked s event = true
    · rw [if_pos stops]
      exact ⟨rfl, rfl, rfl⟩
    · rw [if_neg stops]
      have refused : validatePin (Context.setFeedback none s) event.input b = (.error .accountBlocked, b) :=
        validatePin_of_blocked blocked _
      have rejected : withPin sequel.protection.work _ event b = _ := withPin_of_error (congrArg Prod.fst refused)
      rw [Sequel.rest, rejected, refused]
      exact sequel.rejected_of_blocked now b (.inl rfl)

def caller : Subscriber := { user := { account := { phone := "+254700000001", language := "eng" } } }

/-- The account of the caller is blocked in the store, though not in the context. -/
def lockedBackends : Backends where
  accounts := { accounts := .ofList [("+254700000001", { pin := "1234", language := "eng", blocked := true })] }

theorem blocked_wins_rightPin : ∃ machine, Menu.profile.machine 2024 = .ok machine ∧
    let misled (err : ServiceError) : Failure := { code := invalidPinCode, blocked := true, detail := err.message }
    let event : Event := { kind := .transit, input := "1234" }
    (⟨"authorizingProfileView", .error .accountBlocked⟩ ∈ ((Interpreter.mk machine misled).logged.step .epoch
        "enteringProfileViewPin" caller event (lockedBackends, [])).env.2 ∧
      (Interpreter.step { machine, classify := misled } .epoch "enteringProfileViewPin" caller event
        lockedBackends).state = "accountBlocked") ∧
    lockedBackends.accounts.isBlocked caller.phone = true ∧
    let rest := Interpreter.step { machine } .epoch "enteringProfileChangePin" caller event lockedBackends
    rest.state = "accountBlocked" ∧ rest.disposition = .finished ∧ rest.env = lockedBackends := by
  obtain ⟨machine, made, rejected, entered⟩ := blocked_wins 2024 .profile
  refine ⟨machine, made, ?_⟩
  intro misled event
  have logs : ∀ m, Menu.profile.machine 2024 = .ok m →
      ⟨"authorizingProfileView", .error .accountBlocked⟩ ∈ ((Interpreter.mk m misled).logged.step .epoch
        "enteringProfileViewPin" caller event (lockedBackends, [])).env.2 := by
    intro m same
    cases same
    decide +kernel
  have called := logs machine made
  have locked : lockedBackends.accounts.isBlocked caller.phone = true := by decide
  refine ⟨⟨called, (rejected misled .epoch _ caller event _ _ _ called (.inl rfl)).1⟩, locked, ?_⟩
  exact entered .epoch "enteringProfileChangePin" caller event lockedBackends rfl (by decide) (.inr ⟨rfl, locked⟩)

end Menu

end DialMenu.Menus
