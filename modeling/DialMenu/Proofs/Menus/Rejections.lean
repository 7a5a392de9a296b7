import DialMenu.Proofs.Menus.Protection

/-!
Which rejections the menus route. Every code that a protected change or its PIN check gives has a candidate, but for
one: that no PIN could be judged. A turn of a menu has no place to go only then.
-/

namespace DialMenu.Menus.Menu

variable {year : Int} {menu : Menu} {machine : Machine Subscriber Backends} {protection : Protection}
  {call : Invocation Subscriber Backends}

/-- The guards for the outcomes of a protected change. -/
theorem guard_isSuccess : (menu.bindings year).guard "isSuccess" = some ⟨"isSuccess", isSuccess⟩ := by
  cases menu <;> rfl

theorem guard_isBlocked : (menu.bindings year).guard "isBlocked" = some ⟨"isBlocked", isBlocked⟩ := by
  cases menu <;> rfl

theorem guard_isInvalidPin :
    (menu.bindings year).guard "isInvalidPin" = some ⟨"isInvalidPin", hasCode invalidPinCode⟩ := by
  cases menu <;> rfl

theorem code_ne_unexpected (mem : protection ∈ menu.protections) : protection.code ≠ "UNEXPECTED" := by
  have codes : ∀ protection ∈ menu.protections, protection.code ≠ "UNEXPECTED" := by cases menu <;> decide
  exact codes protection mem

/-- A success always has a candidate. -/
theorem Calls.noneEligible_onDone_iff (calls : menu.Calls year protection call) (s : Subscriber) (event : Event) :
    Transition.NoneEligible call.onDone s event ↔ isSuccess s event = false := by
  obtain ⟨routes, compiled, guards⟩ := calls.onDone
  rw [Route.Compiled.noneEligible_iff compiled, guards, List.forall_mem_singleton]
  simp [Bindings.admits, guard_isSuccess]

/-- A rejection finds no candidate if the account is not blocked and the code is neither that of a wrong PIN nor that
of the change. -/
theorem Calls.noneEligible_onError_iff (calls : menu.Calls year protection call) (mem : protection ∈ menu.protections)
    (s : Subscriber) (event : Event) :
    Transition.NoneEligible call.onError s event ↔
      isBlocked s event = false ∧ hasCode invalidPinCode s event = false ∧
        hasCode protection.code s event = false := by
  obtain ⟨routes, compiled, guards⟩ := calls.onError
  rw [Route.Compiled.noneEligible_iff compiled]
  simp only [guards.mem_iff, List.forall_mem_cons, List.not_mem_nil, false_implies, implies_true, and_true]
  simp [Bindings.admits, guard_isBlocked, guard_isInvalidPin, (binds year protection mem).code]

/-- The outcome of a protected change finds no candidate exactly if no PIN could be judged. -/
theorem Calls.unrouted_iff (calls : menu.Calls year protection call) (mem : protection ∈ menu.protections)
    (s : Subscriber) (event : Event) (b : Backends) :
    call.Unrouted { machine } s event b ↔ s.isBlocked = false ∧ Unjudged s b := by
  have verdict := verdict_validatePin s event.input b
  unfold Invocation.Unrouted
  rw [calls.service]
  cases checked : (validatePin s event.input b).1 with
  | ok _ =>
    rw [withPin_of_ok checked]
    rw [checked] at verdict
    cases verdict with
    | opened opens =>
      obtain ⟨record, found, -, -⟩ := opens.account
      have judged := not_unjudged opens.up found
      rcases protection.answers s (validatePin s event.input b).2 with
        ⟨value, answered, success⟩ | ⟨message, rejected⟩
      · simp [answered, calls.noneEligible_onDone_iff, isSuccess, Event.succeeded, Event.output, Event.withOutcome,
          success, judged]
      · simp [rejected, calls.noneEligible_onError_iff mem, hasCode, Event.failure, Event.withOutcome,
          ServiceError.classify, judged]
  | error err =>
    rw [withPin_of_error checked]
    rw [checked] at verdict
    simp only [calls.noneEligible_onError_iff mem]
    cases verdict with
    | blocked blocked => simp [isBlocked, blocked]
    | locked active up found wrong =>
      simp [isBlocked, Event.failure, Event.withOutcome, ServiceError.classify, not_unjudged up found]
    | wrong active up found free wrong =>
      simp [hasCode, Event.failure, Event.withOutcome, ServiceError.classify, not_unjudged up found]
    | unjudged active unjudged =>
      have other : ("UNEXPECTED" = protection.code) = False := eq_false (code_ne_unexpected mem).symm
      simp [isBlocked, hasCode, Event.failure, Event.withOutcome, ServiceError.classify, active, unjudged, other,
        invalidPinCode]

/-- Where the PIN that is entered leads: to the protected change, unless the menu asks for the status first and the
account is blocked. -/
def afterPin (menu : Menu) (protection : Protection) (s : Subscriber) (event : Event) : String :=
  if menu.asksStatus = true ∧ isBlocked s event = true then "accountBlocked" else protection.call

theorem map_target_find?_pinRoutes (s : Subscriber) (event : Event) :
    ((menu.pinRoutes protection).find? fun route => (menu.bindings year).admits route.guard s event).map
      Route.target = some (menu.afterPin protection s event) := by
  unfold pinRoutes afterPin
  cases menu.asksStatus <;> cases blocked : isBlocked s event <;>
    simp [Bindings.admits, guard_isBlocked, blocked]

/-- An event comes through the gate of a menu if it goes forward in a PIN entry. -/
theorem throughGate_iff (compiled : (menu.bindings year).compile menu.definition = .ok machine)
    {classify : ServiceError → Failure} {state target : String} {s : Subscriber} {event : Event} {b : Backends} :
    ThroughGate { machine, classify } menu.pinStates event ⟨state, s, b⟩ target ↔
      event.kind = .transit ∧ ∃ protection ∈ menu.protections, protection.entry = state ∧
        menu.afterPin protection s event = target := by
  have selects {protection : Protection} (mem : protection ∈ menu.protections)
      {current : Machine.State Subscriber Backends} (found : machine.state? protection.entry = some current) :
      (Transition.select (current.on .transit) s event).map Transition.target =
        some (menu.afterPin protection s event) := by
    obtain ⟨source, declared, same⟩ := Bindings.exists_declared compiled found
    have routes := (menu.protects.declares protection mem).entry
    rw [declared, Option.map_some, Option.some_inj] at routes
    rw [Route.Compiled.map_target_select (same.on .transit), routes, map_target_find?_pinRoutes]
  constructor
  · rintro ⟨forward, gate, current, t, found, first, rfl⟩
    obtain ⟨protection, mem, rfl⟩ := List.mem_map.1 gate
    have target := selects mem found
    rw [← forward, Transition.select_eq_some_iff.2 first] at target
    exact ⟨forward, protection, mem, rfl, (Option.some.inj target).symm⟩
  · rintro ⟨forward, protection, mem, rfl, rfl⟩
    obtain ⟨source, declared, -⟩ := Option.map_eq_some_iff.1 (menu.protects.declares protection mem).entry
    obtain ⟨current, found, -⟩ := Bindings.exists_compiled compiled declared
    obtain ⟨t, selected, target⟩ := Option.map_eq_some_iff.1 (selects mem found)
    rw [← forward] at selected
    exact ⟨forward, List.mem_map_of_mem mem, current, t, found, Transition.select_eq_some_iff.1 selected, target⟩

theorem call_ne_accountBlocked (mem : protection ∈ menu.protections) : protection.call ≠ "accountBlocked" := by
  have calls : ∀ protection ∈ menu.protections, protection.call ≠ "accountBlocked" := by cases menu <;> decide
  exact calls protection mem

/-- A turn of a menu that starts in a state of its machine has no place to go exactly when a PIN that is entered
cannot be judged: the account store is down, or it does not know the account. The menus that ask for the status first
stop a blocked account before that. -/
theorem unresolved_iff (year : Int) (menu : Menu) : ∃ machine, menu.machine year = .ok machine ∧
    ∀ (now : Instant) (state : String) (s : Subscriber) (event : Event) (b : Backends),
      (Interpreter.step { machine } now state s event b).disposition = .unresolved ↔
        machine.contains state = false ∨
          (event.kind = .transit ∧ state ∈ menu.pinStates ∧ s.isBlocked = false ∧ Unjudged s b ∧
            (menu.asksStatus = true → isBlocked s event = false)) := by
  obtain ⟨machine, made⟩ := menu.exists_machine year
  refine ⟨machine, made, fun now state s event b => ?_⟩
  have compiled := (Bindings.wellFormed_of_resolve made).2
  rw [Interpreter.disposition_eq_unresolved_iff { machine } menu.protects.gated made now state s event b]
  refine or_congr_right ⟨?_, ?_⟩
  · rintro ⟨target, stopped, call, through, found, calls, unrouted⟩
    obtain ⟨forward, entered, mem, rfl, rfl⟩ := (throughGate_iff compiled).1 through
    obtain ⟨protection, mem', target, here⟩ := exists_calls compiled found calls
    obtain ⟨active, unjudged⟩ := (here.unrouted_iff mem' _ event b).1 unrouted
    refine ⟨forward, List.mem_map_of_mem mem, active, unjudged, fun asks => ?_⟩
    by_contra blocked
    rw [afterPin, if_pos ⟨asks, by simpa using blocked⟩] at target
    exact call_ne_accountBlocked mem' target
  · rintro ⟨forward, gate, active, unjudged, free⟩
    obtain ⟨protection, mem, rfl⟩ := List.mem_map.1 gate
    obtain ⟨stopped, call, found, calls, here⟩ := exists_call compiled mem
    have target : menu.afterPin protection s event = protection.call :=
      if_neg fun ⟨asks, blocked⟩ => by simp [free asks] at blocked
    have through : ThroughGate { machine } menu.pinStates event ⟨protection.entry, s, b⟩ protection.call :=
      (throughGate_iff compiled).2 ⟨forward, protection, mem, rfl, target⟩
    exact ⟨protection.call, stopped, call, through, found, calls,
      (here.unrouted_iff mem _ event b).2 ⟨active, unjudged⟩⟩

theorem unresolved_iff_outage : ∃ machine, Menu.languages.machine 2024 = .ok machine ∧
    machine.contains "enteringPin" = true ∧
    (Interpreter.step { machine } .epoch "enteringPin" {} { kind := .transit, input := "1234" }
      { accounts := { down := true } }).disposition = .unresolved := by
  obtain ⟨machine, made, ends⟩ := unresolved_iff 2024 .languages
  have known : ∀ m, Menu.languages.machine 2024 = .ok m → m.contains "enteringPin" = true := by
    intro m same
    cases same
    decide +kernel
  refine ⟨machine, made, known machine made, (ends .epoch "enteringPin" {} _ _).2 (.inr ?_)⟩
  exact ⟨rfl, by decide, by decide, .inl rfl, fun _ => by decide⟩

end DialMenu.Menus.Menu
