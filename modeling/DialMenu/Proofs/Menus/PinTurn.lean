import DialMenu.Proofs.Interpreter.Completeness
import DialMenu.Proofs.Menus.Rejections

/-!
A keystroke forward in a PIN entry, from its beginning to its end. The hop to the service is followed by one for the
answer: to the success, or to where the first rejection that applies leads. A wrong PIN leads back to the entry. Of the
keystroke only the service sees the text.
-/

namespace DialMenu.Menus

/-- How a menu sees that a protected change was rejected. -/
inductive Rejection where
  | blocked
  | wrongPin
  | failed
deriving DecidableEq

/-- How a menu goes on behind a protected change. -/
structure Sequel where
  protection : Protection
  success : String
  /-- The conversation is over with the success. -/
  closes : Bool := false
  /-- The action that takes over what the service did. It sees no more of the event than the answer. -/
  confirmation : Action Subscriber
  blind : ∀ s event other, event.outcome = other.outcome → confirmation.run s event = confirmation.run s other
  failure : String
  /-- The state that asks for the PIN again. -/
  retry : String
  feedback : String
  /-- The rejections in the order in which they are tried behind that of a blocked account. -/
  later : List Rejection
  /-- The rejections whose details are kept. -/
  noted : List Rejection

/-- The rejection shows in the context or in the failure. -/
def Protection.shows (protection : Protection) (s : Subscriber) (failure : Failure) : Rejection → Bool
  | .blocked => s.isBlocked || failure.blocked
  | .wrongPin => failure.code = invalidPinCode
  | .failed => failure.code = protection.code

namespace Sequel

def language : Sequel where
  protection := .language
  success := "changeSuccess"
  confirmation := ⟨"saveAccountLanguage", Languages.saveAccountLanguage⟩
  blind _ _ _ _ := rfl
  failure := "changeError"
  retry := "invalidPin"
  feedback := "invalidPin"
  later := [.wrongPin, .failed]
  noted := [.blocked, .wrongPin, .failed]

def profileChange : Sequel where
  protection := .profileChange
  success := "profileChangeSuccess"
  confirmation := ⟨"applyProfileChange", ProfileMenu.applyChange⟩
  blind _ _ _ _ := rfl
  failure := "changeError"
  retry := "invalidPinPC"
  feedback := "invalidPinPC"
  later := [.failed, .wrongPin]
  noted := [.blocked, .wrongPin, .failed]

def profileView : Sequel where
  protection := .profileView
  success := "displayingProfile"
  closes := true
  confirmation := ⟨"savePersonalInformation", ProfileMenu.saveLoaded⟩
  blind s event other same := by simp only [ProfileMenu.saveLoaded, Event.output, same]
  failure := "loadError"
  retry := "invalidPinPV"
  feedback := "invalidPinPV"
  later := [.failed, .wrongPin]
  noted := [.failed]

def guardian : Sequel where
  protection := .guardian
  success := "guardianAdditionSuccess"
  confirmation := ⟨"recordGuardian", Guardians.recordGuardian⟩
  blind _ _ _ _ := rfl
  failure := "guardianAdditionError"
  retry := "invalidPinAG"
  feedback := "invalidPin"
  later := [.wrongPin, .failed]
  noted := [.blocked, .wrongPin, .failed]

/-- A blocked account is looked for first. -/
def order (sequel : Sequel) : List Rejection := .blocked :: sequel.later

def target (sequel : Sequel) : Rejection → String
  | .blocked => "accountBlocked"
  | .wrongPin => sequel.retry
  | .failed => sequel.failure

def guard (sequel : Sequel) : Rejection → String
  | .blocked => "isBlocked"
  | .wrongPin => "isInvalidPin"
  | .failed => sequel.protection.guard

/-- The candidate for a rejection. -/
def route (sequel : Sequel) (rejection : Rejection) : Route where
  target := sequel.target rejection
  guard := some (sequel.guard rejection)
  actions := if rejection ∈ sequel.noted then ["updateErrorMessages"] else []

/-- The call of the protected change. -/
def call (sequel : Sequel) : Call where
  service := sequel.protection.service
  onDone := [{ target := sequel.success, guard := some "isSuccess", actions := [sequel.confirmation.name] }]
  onError := sequel.order.map sequel.route

/-- The rejection that a failure is taken for. -/
def rejection? (sequel : Sequel) (s : Subscriber) (failure : Failure) : Option Rejection :=
  sequel.order.find? (sequel.protection.shows s failure)

/-- The context behind a rejection. -/
def note (sequel : Sequel) (failure : Failure) (s : Subscriber) (rejection : Rejection) : Subscriber :=
  if rejection ∈ sequel.noted then { s with errors := s.errors ++ [failure.detail] } else s

variable (sequel : Sequel) (now : Instant) (s : Subscriber)

/-- The hop from the PIN entry. -/
def entrance : Hop where
  origin := sequel.protection.entry
  target := sequel.protection.call
  trigger := .event .transit
  timestamp := now

/-- The hop that the service's answer causes. -/
def exit (target : String) (trigger : Trigger) : Hop where
  origin := sequel.protection.call
  target := target
  trigger := trigger
  timestamp := now

/-- The hop back to the PIN entry. -/
def again : Hop where
  origin := sequel.retry
  target := sequel.protection.entry
  trigger := .raise .retry
  timestamp := now

/-- Where a rejection with this failure leaves the turn. -/
def rejected (failure : Failure) (b : Backends) : Rest Subscriber Backends :=
  match sequel.rejection? s failure with
  | none =>
    { state := sequel.protection.call, context := s, disposition := .unresolved
      trace := { hops := [sequel.entrance now] }, env := b }
  | some .wrongPin =>
    { state := sequel.protection.entry
      context := Context.setFeedback (some sequel.feedback) (sequel.note failure s .wrongPin)
      disposition := .waiting
      trace := { hops := [sequel.entrance now, sequel.exit now sequel.retry .error, sequel.again now] }, env := b }
  | some rejection =>
    { state := sequel.target rejection, context := sequel.note failure s rejection, disposition := .finished
      trace := { hops := [sequel.entrance now, sequel.exit now (sequel.target rejection) .error] }, env := b }

/-- The event of a success, without what was typed. -/
def answered (value : Value) : Event := { kind := .transit, input := "", outcome := some (.success value) }

/-- Where the answer of the service leaves the turn. -/
def rest (classify : ServiceError → Failure) (answer : Answer Backends) : Rest Subscriber Backends :=
  match answer.result with
  | .ok value =>
    { state := sequel.success, context := sequel.confirmation.run s (answered value)
      disposition := if sequel.closes then .finished else .waiting
      trace := { hops := [sequel.entrance now, sequel.exit now sequel.success .done] }, env := answer.env }
  | .error err => sequel.rejected now s (classify err) answer.env

end Sequel

namespace Menu

def sequels : Menu → List Sequel
  | languages => [.language]
  | profile => [.profileChange, .profileView]
  | guardians => [.guardian]

theorem map_protection_sequels (menu : Menu) : menu.sequels.map Sequel.protection = menu.protections := by
  cases menu <;> rfl

/-- Where a keystroke forward in a PIN entry leads. -/
def pinTurn (menu : Menu) (sequel : Sequel) (classify : ServiceError → Failure) (now : Instant) (s : Subscriber)
    (event : Event) (b : Backends) : Rest Subscriber Backends :=
  let cleared := Context.setFeedback none s
  if menu.asksStatus = true ∧ isBlocked s event = true then
    { state := "accountBlocked", context := cleared, disposition := .finished
      trace := { hops := [{ sequel.entrance now with target := "accountBlocked" }] }, env := b }
  else sequel.rest now cleared classify (withPin sequel.protection.work cleared event b)

/-- The state does nothing by itself when it is entered. -/
def Settles (menu : Menu) (id : String) (final : Bool) : Prop :=
  ∃ source ∈ menu.definition.state? id, source.isFinal = final ∧ source.raise = none ∧ source.call = none

/-- What a menu declares behind a protected change. -/
structure Continues (menu : Menu) (sequel : Sequel) : Prop where
  call : (menu.definition.state? sequel.protection.call).bind Definition.State.call = some sequel.call
  entry : menu.Settles sequel.protection.entry false
  success : menu.Settles sequel.success sequel.closes
  blocked : menu.Settles "accountBlocked" true
  failure : menu.Settles sequel.failure true
  retry : ∃ source ∈ menu.definition.state? sequel.retry, source.isFinal = false ∧
    source.raise = some { kind := .retry, feedback := some sequel.feedback } ∧
    source.candidates .retry = [{ target := sequel.protection.entry }]

instance (menu : Menu) (id : String) (final : Bool) : Decidable (menu.Settles id final) :=
  inferInstanceAs (Decidable (∃ source ∈ menu.definition.state? id, _))

instance (menu : Menu) (sequel : Sequel) : Decidable (menu.Continues sequel) :=
  decidable_of_iff (_ ∧ _ ∧ _ ∧ _ ∧ _ ∧ _)
    ⟨fun ⟨call, entry, success, blocked, failure, retry⟩ => ⟨call, entry, success, blocked, failure, retry⟩,
      fun continues => ⟨continues.call, continues.entry, continues.success, continues.blocked, continues.failure,
        continues.retry⟩⟩

/-- The state raises at once, and then has nothing to do but to ask again at `page`. -/
def AsksAgain (menu : Menu) (id : String) (raise : EntryRaise) (page : String) : Prop :=
  ∃ source ∈ menu.definition.state? id, source.isFinal = false ∧ source.raise = some raise ∧
    source.candidates raise.kind = [{ target := page }]

instance (menu : Menu) (id : String) (raise : EntryRaise) (page : String) :
    Decidable (menu.AsksAgain id raise page) :=
  inferInstanceAs (Decidable (∃ source ∈ menu.definition.state? id, _))

theorem continues (menu : Menu) : ∀ sequel ∈ menu.sequels, menu.Continues sequel := by
  cases menu <;> decide +kernel

theorem action_confirmation (year : Int) (menu : Menu) :
    ∀ sequel ∈ menu.sequels, (menu.bindings year).action sequel.confirmation.name = some sequel.confirmation := by
  cases menu with
  | languages | guardians => exact List.forall_mem_singleton.2 rfl
  | profile => exact List.forall_mem_cons.2 ⟨rfl, List.forall_mem_singleton.2 rfl⟩

variable {year : Int} {menu : Menu} {machine : Machine Subscriber Backends} {sequel : Sequel} {id : String}
  {final : Bool} {classify : ServiceError → Failure} {now : Instant} {s : Subscriber} {event : Event} {b : Backends}

theorem action_updateErrorMessages :
    (menu.bindings year).action "updateErrorMessages" = some ⟨"updateErrorMessages", updateErrorMessages⟩ := by
  cases menu <;> rfl

theorem mem_protections (mem : sequel ∈ menu.sequels) : sequel.protection ∈ menu.protections := by
  rw [← menu.map_protection_sequels]
  exact List.mem_map_of_mem mem

theorem exists_sequel {protection : Protection} (mem : protection ∈ menu.protections) :
    ∃ sequel ∈ menu.sequels, sequel.protection = protection := by
  rw [← menu.map_protection_sequels] at mem
  exact List.mem_map.1 mem

/-- A walk that comes to such a state ends there. -/
theorem Settles.ending (settles : menu.Settles id final)
    (compiled : (menu.bindings year).compile menu.definition = .ok machine) (hops : List Hop) :
    Ending (Interpreter.mk machine classify) event hops ⟨id, s, b⟩ (if final then .finished else .waiting) ⟨id, s, b⟩ := by
  obtain ⟨source, declared, rfl, quiet, silent⟩ := settles
  obtain ⟨state, found, same⟩ := Bindings.exists_compiled compiled declared
  cases last : source.isFinal with
  | true => exact .final found (same.kind.trans (of_decide_eq_true last))
  | false =>
    have none : state.call = none := by simpa [silent] using same.isSome_call
    exact .waiting found (same.kind_ne_final last) (same.raise.trans quiet) none

/-- A walk that comes to such a state goes on to the page. -/
theorem AsksAgain.walk {raise : EntryRaise} {page : String} (again : menu.AsksAgain id raise page)
    (compiled : (menu.bindings year).compile menu.definition = .ok machine) {start : Position Subscriber Backends}
    {hops : List Hop} (walk : Walk (Interpreter.mk machine classify) now event start hops ⟨id, s, b⟩)
    (fresh : ¬ Spent hops id) :
    Walk (Interpreter.mk machine classify) now event start
      (hops ++ [{ origin := id, target := page, trigger := .raise raise.kind, timestamp := now }])
      ⟨page, Context.setFeedback raise.feedback s, b⟩ := by
  obtain ⟨source, declared, proceeds, raises, routes⟩ := again
  obtain ⟨state, found, same⟩ := Bindings.exists_compiled compiled declared
  have candidates := same.on raise.kind
  rw [routes] at candidates
  obtain ⟨t, first, here⟩ := Route.Compiled.exists_firstEligible candidates (List.find?_cons_of_pos rfl)
  have longer := walk.automatic found (same.kind_ne_final proceeds) fresh (.raise (same.raise.trans raises)) first
    (t.sequence_apply _ _)
  rw [here.target, here.apply_of_no_actions rfl] at longer
  exact longer

theorem actions_of_mem_pinRoutes {route : Route} {protection : Protection} (mem : route ∈ menu.pinRoutes protection) :
    route.actions = [] := by
  unfold pinRoutes at mem
  cases asks : menu.asksStatus with
  | true =>
    rw [asks] at mem
    rcases List.mem_pair.1 mem with rfl | rfl <;> rfl
  | false =>
    rw [asks] at mem
    rw [List.mem_singleton.1 mem]

/-- The keystroke leads on from the PIN entry. -/
theorem walk_afterPin (compiled : (menu.bindings year).compile menu.definition = .ok machine)
    (mem : sequel ∈ menu.sequels) (forward : event.kind = .transit) :
    Walk (Interpreter.mk machine classify) now event ⟨sequel.protection.entry, s, b⟩
      [{ sequel.entrance now with target := menu.afterPin sequel.protection s event }]
      ⟨menu.afterPin sequel.protection s event, Context.setFeedback none s, b⟩ := by
  obtain ⟨source, declared, routes⟩ :=
    Option.map_eq_some_iff.1 (menu.protects.declares _ (mem_protections mem)).entry
  obtain ⟨current, found, same⟩ := Bindings.exists_compiled compiled declared
  have targets : Option.map Route.target
      ((menu.pinRoutes sequel.protection).find? fun route => (menu.bindings year).admits route.guard s event) = _ :=
    map_target_find?_pinRoutes s event
  obtain ⟨route, admitted, target⟩ := Option.map_eq_some_iff.1 targets
  have plain := actions_of_mem_pinRoutes (List.mem_of_find?_eq_some admitted)
  obtain ⟨t, first, here⟩ := Route.Compiled.exists_firstEligible (same.on .transit) (routes ▸ admitted)
  rw [← forward] at first
  have walk : Walk (Interpreter.mk machine classify) now event ⟨sequel.protection.entry, s, b⟩ _ _ :=
    .event found first (t.sequence_apply _ event)
  rw [here.target, target, here.apply_of_no_actions plain, forward] at walk
  exact walk

/-- The state that a machine enters for a protected change, and its call. -/
structure Serves (menu : Menu) (year : Int) (machine : Machine Subscriber Backends) (sequel : Sequel)
    (state : Machine.State Subscriber Backends) (call : Invocation Subscriber Backends) : Prop where
  found : machine.state? sequel.protection.call = some state
  proceeds : state.kind ≠ .final
  quiet : state.raise = none
  calls : state.call = some call
  compiled : sequel.call.Compiled (menu.bindings year) call
  service : call.service = withPin sequel.protection.work

theorem exists_serves (made : menu.machine year = .ok machine) (mem : sequel ∈ menu.sequels) :
    ∃ state call, menu.Serves year machine sequel state call := by
  obtain ⟨sound, compiled⟩ := Bindings.wellFormed_of_resolve made
  obtain ⟨source, declared, calls⟩ := Option.bind_eq_some_iff.1 (menu.continues _ mem).call
  obtain ⟨state, found, same⟩ := Bindings.exists_compiled compiled declared
  obtain ⟨call, here, sameCall⟩ := same.exists_invocation calls
  obtain ⟨proceeds, quiet⟩ := (sound.states _ source declared).of_call (by rw [calls]; rfl)
  have bound := sameCall.service.symm.trans (binds year _ (mem_protections mem)).service
  exact ⟨state, call, found, same.kind_ne_final proceeds, same.raise.trans quiet, here, sameCall,
    Option.some.inj bound⟩

theorem admits_guard (mem : sequel ∈ menu.sequels) (failure : Failure) (rejection : Rejection) :
    (menu.bindings year).admits (some (sequel.guard rejection)) s (event.withOutcome (.failure failure)) =
      sequel.protection.shows s failure rejection := by
  cases rejection with
  | blocked => simp [Bindings.admits, Sequel.guard, guard_isBlocked, isBlocked, Event.failure, Event.withOutcome,
      Protection.shows]
  | wrongPin => simp [Bindings.admits, Sequel.guard, guard_isInvalidPin, hasCode, Event.failure, Event.withOutcome,
      Protection.shows]
  | failed => simp [Bindings.admits, Sequel.guard, (binds year _ (mem_protections mem)).code, hasCode, Event.failure,
      Event.withOutcome, Protection.shows]

theorem find?_onError (mem : sequel ∈ menu.sequels) (failure : Failure) :
    (sequel.call.onError.find? fun route =>
        (menu.bindings year).admits route.guard s (event.withOutcome (.failure failure))) =
      (sequel.rejection? s failure).map sequel.route :=
  List.find?_map.trans (congrArg _ (congrArg (List.find? · _) (funext (admits_guard mem failure))))

theorem apply_route {rejection : Rejection} {t : Transition Subscriber}
    (same : (sequel.route rejection).Compiled (menu.bindings year) t) (failure : Failure) :
    t.apply s (event.withOutcome (.failure failure)) = sequel.note failure s rejection := by
  unfold Sequel.note
  by_cases noted : rejection ∈ sequel.noted
  · rw [if_pos noted, same.apply_of_action (if_pos noted) action_updateErrorMessages]
    rfl
  · rw [if_neg noted, same.apply_of_no_actions (if_neg noted)]

/-- A protected change answers with a success, if it answers. -/
theorem isSuccess_of_ok (protection : Protection) {value : Value}
    (answered : (withPin protection.work s event b).result = .ok value) : value.IsSuccess := by
  cases checked : (validatePin s event.input b).1 with
  | error err =>
    rw [withPin_of_error checked] at answered
    cases answered
  | ok _ =>
    rw [withPin_of_ok checked] at answered
    rcases protection.answers s (validatePin s event.input b).2 with ⟨other, same, success⟩ | ⟨message, rejected⟩
    · cases same.symm.trans answered
      exact success
    · cases rejected.symm.trans answered

section Answer

variable {state : Machine.State Subscriber Backends} {call : Invocation Subscriber Backends}
  {start : Position Subscriber Backends}

theorem not_spent_entrance (id : String) : ¬ Spent [sequel.entrance now] id := by
  simp [Spent, Sequel.entrance, Hop.isAutomatic, Trigger.isRaise, Trigger.isOutcome]

/-- A success leads to the state for it. -/
theorem Serves.walk_success (serves : menu.Serves year machine sequel state call) (mem : sequel ∈ menu.sequels)
    (walk : Walk (Interpreter.mk machine classify) now event start [sequel.entrance now]
      ⟨sequel.protection.call, s, b⟩)
    {value : Value} (answered : (withPin sequel.protection.work s event b).result = .ok value) :
    Walk (Interpreter.mk machine classify) now event start
      [sequel.entrance now, sequel.exit now sequel.success .done]
      ⟨sequel.success, sequel.confirmation.run s (Sequel.answered value),
        (withPin sequel.protection.work s event b).env⟩ := by
  have success := isSuccess_of_ok sequel.protection answered
  have admitted : (menu.bindings year).admits (some "isSuccess") s (event.withOutcome (.success value)) = true := by
    simp [Bindings.admits, guard_isSuccess, isSuccess, Event.succeeded, Event.output, Event.withOutcome, success]
  obtain ⟨t, first, here⟩ := Route.Compiled.exists_firstEligible serves.compiled.onDone
    (List.find?_cons_of_pos admitted)
  have designated : t.FirstEligible (state.designated .done) s (event.withOutcome (.success value)) := by
    rwa [Machine.State.designated, serves.calls]
  rw [← serves.service] at answered ⊢
  have longer := walk.automatic serves.found serves.proceeds (not_spent_entrance _)
    (.done serves.quiet serves.calls answered) designated
    (t.sequence_apply s (event.withOutcome (.success value)))
  rw [here.target, here.apply_of_action rfl (menu.action_confirmation year _ mem)] at longer
  rw [sequel.blind s (Sequel.answered value) (event.withOutcome (.success value)) rfl]
  exact longer

/-- A rejection leads to the state for it. -/
theorem Serves.walk_rejection (serves : menu.Serves year machine sequel state call) (mem : sequel ∈ menu.sequels)
    (walk : Walk (Interpreter.mk machine classify) now event start [sequel.entrance now]
      ⟨sequel.protection.call, s, b⟩)
    {err : ServiceError} (rejected : (withPin sequel.protection.work s event b).result = .error err)
    {rejection : Rejection} (taken : sequel.rejection? s (classify err) = some rejection) :
    Walk (Interpreter.mk machine classify) now event start
      [sequel.entrance now, sequel.exit now (sequel.target rejection) .error]
      ⟨sequel.target rejection, sequel.note (classify err) s rejection,
        (withPin sequel.protection.work s event b).env⟩ := by
  obtain ⟨t, first, here⟩ := Route.Compiled.exists_firstEligible serves.compiled.onError
    ((find?_onError mem (classify err)).trans (congrArg _ taken))
  have designated : t.FirstEligible (state.designated .error) s (event.withOutcome (.failure (classify err))) := by
    rwa [Machine.State.designated, serves.calls]
  rw [← serves.service] at rejected ⊢
  have longer := walk.automatic serves.found serves.proceeds (not_spent_entrance _)
    (.error serves.quiet serves.calls rejected) designated
    (t.sequence_apply s (event.withOutcome (.failure (classify err))))
  rw [here.target, apply_route here] at longer
  exact longer

/-- A rejection that is taken for none ends the turn where it is. -/
theorem Serves.ending_unrouted (serves : menu.Serves year machine sequel state call) (mem : sequel ∈ menu.sequels)
    {err : ServiceError} (rejected : (withPin sequel.protection.work s event b).result = .error err)
    (unknown : sequel.rejection? s (classify err) = none) :
    Ending (Interpreter.mk machine classify) event [sequel.entrance now] ⟨sequel.protection.call, s, b⟩ .unresolved
      ⟨sequel.protection.call, s, (withPin sequel.protection.work s event b).env⟩ := by
  have unadmitted : (sequel.call.onError.find? fun route =>
      (menu.bindings year).admits route.guard s (event.withOutcome (.failure (classify err)))) = none := by
    rw [find?_onError mem, unknown, Option.map_none]
  have refused : Transition.NoneEligible (state.designated .error) s
      (event.withOutcome (.failure (classify err))) := by
    rw [Machine.State.designated, serves.calls]
    refine (Route.Compiled.noneEligible_iff serves.compiled.onError).2 (List.forall_mem_map.2 fun route mem => ?_)
    simpa using List.find?_eq_none.1 unadmitted route mem
  rw [← serves.service] at rejected ⊢
  exact .unrouted serves.found serves.proceeds (not_spent_entrance _)
    (.error serves.quiet serves.calls rejected) refused

/-- From the state that asks again the turn goes back to the PIN entry. -/
theorem Serves.walk_again (serves : menu.Serves year machine sequel state call) (mem : sequel ∈ menu.sequels)
    (compiled : (menu.bindings year).compile menu.definition = .ok machine)
    (walk : Walk (Interpreter.mk machine classify) now event start
      [sequel.entrance now, sequel.exit now sequel.retry .error] ⟨sequel.retry, s, b⟩) :
    Walk (Interpreter.mk machine classify) now event start
      [sequel.entrance now, sequel.exit now sequel.retry .error, sequel.again now]
      ⟨sequel.protection.entry, Context.setFeedback (some sequel.feedback) s, b⟩ := by
  have again : menu.AsksAgain sequel.retry { kind := .retry, feedback := some sequel.feedback }
      sequel.protection.entry := (menu.continues _ mem).retry
  have apart : sequel.protection.call ≠ sequel.retry := by
    intro here
    obtain ⟨source, declared, -, raises, -⟩ := again
    obtain ⟨asking, found, same⟩ := Bindings.exists_compiled compiled declared
    rw [← here, serves.found, Option.some_inj] at found
    rw [← same.raise, ← found, serves.quiet] at raises
    cases raises
  have fresh : ¬ Spent [sequel.entrance now, sequel.exit now sequel.retry .error] sequel.retry := by
    simp [Spent, Sequel.entrance, Sequel.exit, Hop.isAutomatic, Trigger.isRaise, Trigger.isOutcome, apart]
  exact again.walk compiled walk fresh

end Answer

/-- A keystroke forward in a PIN entry comes to rest where the menu's sequel says. -/
theorem step_pin (made : menu.machine year = .ok machine) (mem : sequel ∈ menu.sequels)
    (classify : ServiceError → Failure) (now : Instant) (s : Subscriber) (forward : event.kind = .transit)
    (b : Backends) :
    Interpreter.step { machine, classify } now sequel.protection.entry s event b =
      menu.pinTurn sequel classify now s event b := by
  have compiled := (Bindings.wellFormed_of_resolve made).2
  have continues := menu.continues sequel mem
  obtain ⟨state, call, serves⟩ := exists_serves made mem
  have walk : Walk (Interpreter.mk machine classify) now event ⟨sequel.protection.entry, s, b⟩ _ _ :=
    walk_afterPin compiled mem forward
  unfold pinTurn
  by_cases stopped : menu.asksStatus = true ∧ isBlocked s event = true
  · rw [if_pos stopped]
    rw [afterPin, if_pos stopped] at walk
    exact Interpreter.step_of_walk walk (continues.blocked.ending compiled _)
  · rw [if_neg stopped]
    rw [afterPin, if_neg stopped] at walk
    unfold Sequel.rest
    cases answered : (withPin sequel.protection.work (Context.setFeedback none s) event b).result with
    | ok value =>
      have longer := serves.walk_success mem walk answered
      exact Interpreter.step_of_walk longer (continues.success.ending compiled _)
    | error err =>
      dsimp only
      unfold Sequel.rejected
      cases taken : sequel.rejection? (Context.setFeedback none s) (classify err) with
      | none => exact Interpreter.step_of_walk walk (serves.ending_unrouted mem answered taken)
      | some rejection =>
        have longer := serves.walk_rejection mem walk answered taken
        cases rejection with
        | blocked => exact Interpreter.step_of_walk longer (continues.blocked.ending compiled _)
        | wrongPin =>
          exact Interpreter.step_of_walk (serves.walk_again mem compiled longer) (continues.entry.ending compiled _)
        | failed => exact Interpreter.step_of_walk longer (continues.failure.ending compiled _)

end Menu

end DialMenu.Menus
