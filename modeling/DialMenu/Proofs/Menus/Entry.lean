import DialMenu.Proofs.Interpreter.Bounds
import DialMenu.Proofs.Interpreter.Invariant
import DialMenu.Proofs.Menus.PinGate
import DialMenu.Proofs.Menus.Success
import DialMenu.Proofs.Menus.Turn
import Mathlib.Data.List.Nodup

/-!
What a menu collects before it asks for the PIN. Some candidates take in an input that their guard accepts; some states
wait for the PIN with what was taken in; the success of the service confirms it. From these three kinds of candidates
follow the invariants of whole conversations.
-/

namespace DialMenu.Menus

namespace Change

/-- The states in which what was entered waits for the PIN: the entry of the PIN, the call behind it, and the state that
asks for the PIN again. -/
def awaiting (change : Change) : List String :=
  [change.sequel.protection.entry, change.sequel.protection.call, change.sequel.retry]

/-- The guards that accept an input, each with the action that takes it in. -/
def entries : Change → List (String × String)
  | language => [("isValidLanguageOption", "saveLanguageSelection")]
  | guardian => [("isValidGuardian", "saveGuardianEntry")]
  | profile => [
    ("isValidName", "saveGivenNames"),
    ("isValidNameGenderAbsent", "saveFamilyName"), ("isValidName", "saveFamilyName"),
    ("isValidGenderYOBAbsent", "saveGender"), ("isValidGender", "saveGender"),
    ("isValidYOBLocationAbsent", "saveYOB"), ("isValidYOB", "saveYOB"),
    ("isValidLocation", "saveLocation")]

/-- A candidate leaves what was entered alone, and then only a state that waits for the PIN leads to one; or it takes an
accepted input in; or it confirms a change, and leads to no state that waits for the PIN. -/
def Moves (change : Change) (id : String) (route : Route) : Prop :=
  (route.actions ∈ [[], ["updateErrorMessages"]] ∧ (route.target ∈ change.awaiting → id ∈ change.awaiting)) ∨
    (∃ entry ∈ change.entries, route.guard = some entry.1 ∧ route.actions = [entry.2]) ∨
    ∃ name ∈ change.menu.confirmations, route.actions = [name] ∧ route.target ∉ change.awaiting

instance (change : Change) (id : String) (route : Route) : Decidable (change.Moves id route) :=
  inferInstanceAs (Decidable (_ ∨ _ ∨ _))

theorem moves (change : Change) :
    ∀ e ∈ change.menu.definition.states.entries, ∀ route ∈ e.2.routes, change.Moves e.1 route := by
  cases change <;> decide +kernel

theorem initial_not_mem_awaiting (change : Change) : change.menu.definition.initial ∉ change.awaiting := by
  cases change <;> decide

/-- Taking an accepted input in keeps what is sound, and fills what the PIN is to confirm. Both properties are of the
user and of what is pending. -/
structure Takes (change : Change) (year : Int) (Sound Filled : Subscriber → Prop) : Prop where
  sound_congr : ∀ s s', s'.user = s.user → s'.pending = s.pending → Sound s → Sound s'
  filled_congr : ∀ s s', s'.user = s.user → s'.pending = s.pending → Filled s → Filled s'
  entry : ∀ entry ∈ change.entries, ∃ guard action,
    (change.menu.bindings year).guard entry.1 = some guard ∧ (change.menu.bindings year).action entry.2 = some action ∧
      ∀ s tag event, guard.check s event = true → Sound s →
        Sound (action.run { s with feedback := tag } event) ∧ Filled (action.run { s with feedback := tag } event)

/-- A confirmation keeps what is sound, too. -/
structure Keeps (change : Change) (year : Int) (Sound Filled : Subscriber → Prop) : Prop
    extends change.Takes year Sound Filled where
  confirmation : ∀ name ∈ change.menu.confirmations, ∃ action,
    (change.menu.bindings year).action name = some action ∧ ∀ s event, Sound s → Sound (action.run s event)

end Change

theorem pending_updateErrorMessages (s : Subscriber) (event : Event) :
    (updateErrorMessages s event).pending = s.pending := by
  unfold updateErrorMessages
  split <;> rfl

/-- Keeping a rejection, or doing nothing, leaves the user and what is pending alone. -/
theorem Menu.perform_plain {year : Int} {menu : Menu} {actions : List String}
    (plain : actions ∈ [[], ["updateErrorMessages"]]) (s : Subscriber) (event : Event) :
    ((menu.bindings year).perform actions s event).user = s.user ∧
      ((menu.bindings year).perform actions s event).pending = s.pending := by
  rcases List.mem_pair.1 plain with rfl | rfl
  · exact ⟨rfl, rfl⟩
  · rw [Bindings.perform_singleton Menu.action_updateErrorMessages]
    exact ⟨user_updateErrorMessages s event, pending_updateErrorMessages s event⟩

/-- Whatever a menu calls on the way of a turn is a protected change. -/
theorem Menu.exists_protection_of_logged {menu : Menu} {year : Int} {machine : Machine Subscriber Backends}
    (made : menu.machine year = .ok machine) {classify : ServiceError → Failure} {now : Instant} {state : String}
    {s : Subscriber} {event : Event} {b : Backends} {logged : LoggedCall}
    (mem : logged ∈ ((Interpreter.mk machine classify).logged.step now state s event (b, [])).env.2) :
    ∃ protection ∈ menu.protections, protection.call = logged.state := by
  obtain ⟨hops, p, stopped, -, found, madeAt⟩ := Interpreter.made_of_logged mem
  obtain ⟨call, calls, -⟩ := madeAt.answer
  obtain ⟨protection, inside, same, -⟩ := Menu.exists_calls (Bindings.wellFormed_of_resolve made).2 found calls
  exact ⟨protection, inside, same.trans madeAt.here⟩

/-- The backends are as they were, or the work of a protected change left them so: it was done behind the PIN check for
an event that came forward in the PIN entry of that change. -/
theorem Menu.step_env {menu : Menu} {year : Int} {machine : Machine Subscriber Backends}
    (made : menu.machine year = .ok machine) (classify : ServiceError → Failure) (now : Instant) (state : String)
    (s : Subscriber) (event : Event) (b : Backends) :
    let rest := Interpreter.step { machine, classify } now state s event b
    rest.env = b ∨ ∃ protection ∈ menu.protections, protection.entry = state ∧
      rest.env = (withPin protection.work (Context.setFeedback none s) event b).env := by
  intro rest
  have compiled := (Bindings.wellFormed_of_resolve made).2
  rcases Interpreter.step_calledOnce { machine, classify } menu.protects.gated compiled (menu.reserves year) now state
    s event b with ⟨same, -⟩ | called
  · exact .inl same
  · obtain ⟨through, found, calls, left, -⟩ := called
    obtain ⟨-, entered, mem, here, target⟩ := (Menu.throughGate_iff compiled).1 through
    obtain ⟨protection, mem', stands, service, -, -⟩ := exists_calls compiled found calls
    have calling : menu.afterPin entered s event = protection.call := target.trans stands.symm
    have chosen : entered.call = protection.call := by
      unfold Menu.afterPin at calling
      split at calling
      · exact absurd calling.symm (Menu.call_ne_accountBlocked mem')
      · exact calling
    -- the state behind the entry is the one that calls, and no two changes share it
    have apart : (menu.protections.map Protection.call).Nodup := by cases menu <;> decide
    obtain rfl := List.inj_on_of_nodup_map apart mem mem' chosen
    rw [service] at left
    exact .inr ⟨entered, mem, here, left⟩

section Invariant

variable {change : Change} {year : Int} {Sound Filled : Subscriber → Prop}

/-- A candidate that is taken keeps the context sound, and filled where the PIN is awaited, unless it confirms a
change. -/
theorem Change.Takes.route (takes : change.Takes year Sound Filled) {id : String} {source : Definition.State}
    (declared : change.menu.definition.state? id = some source) {route : Route} (mem : route ∈ source.routes)
    {judged s : Subscriber} {event : Event} (same : s = judged ∨ s = Context.setFeedback none judged)
    (sound : Sound s) (filled : id ∈ change.awaiting → Filled s)
    (admitted : (change.menu.bindings year).admits route.guard judged event = true) :
    (Sound ((change.menu.bindings year).perform route.actions s event) ∧
        (route.target ∈ change.awaiting → Filled ((change.menu.bindings year).perform route.actions s event))) ∨
      ∃ name ∈ change.menu.confirmations, route.actions = [name] ∧ route.target ∉ change.awaiting := by
  rcases change.moves (id, source) ((Table.mem_entries_iff _ _ _).2 declared) route mem with
    ⟨plain, awaits⟩ | ⟨entry, accepted, guarded, saves⟩ | confirms
  · obtain ⟨user, pending⟩ := Menu.perform_plain plain s event
    exact .inl ⟨takes.sound_congr s _ user pending sound,
      fun target => takes.filled_congr s _ user pending (filled (awaits target))⟩
  · obtain ⟨guard, action, guardBound, actionBound, enters⟩ := takes.entry entry accepted
    -- what was judged and what is acted on differ in the tag at most
    have checked : guard.check judged event = true := by
      simpa [Bindings.admits, guarded, guardBound] using admitted
    have retagged : s = { judged with feedback := s.feedback } := by rcases same with rfl | rfl <;> rfl
    have before : Sound judged := takes.sound_congr s judged (by rw [retagged]) (by rw [retagged]) sound
    obtain ⟨sound', filled'⟩ := enters judged s.feedback event checked before
    rw [saves, Bindings.perform_singleton actionBound, retagged]
    exact .inl ⟨sound', fun _ => filled'⟩
  · exact .inr confirms

namespace Change.Keeps

/-- What is kept is an invariant of the menu: the context is sound, and where the PIN is awaited it is filled. -/
theorem maintains (keeps : change.Keeps year Sound Filled) :
    (change.menu.bindings year).Maintains change.menu.definition
      fun id s => Sound s ∧ (id ∈ change.awaiting → Filled s) where
  feedback id tag s holds := ⟨keeps.sound_congr s _ rfl rfl holds.1,
    fun awaits => keeps.filled_congr s _ rfl rfl (holds.2 awaits)⟩
  route id source declared route mem judged s event same holds admitted := by
    obtain ⟨sound, filled⟩ := holds
    rcases keeps.toTakes.route declared mem same sound filled admitted with kept | ⟨name, confirms, acts, elsewhere⟩
    · exact kept
    · obtain ⟨action, bound, kept⟩ := keeps.confirmation name confirms
      rw [acts, Bindings.perform_singleton bound]
      exact ⟨kept s event sound, fun target => absurd target elsewhere⟩

variable {machine : Machine Subscriber Backends} {classify : ServiceError → Failure} {now : Instant} {state : String}
  {s : Subscriber} {event : Event} {b : Backends}

/-- The service of the change is called on a context that is sound and filled. -/
theorem exists_called (keeps : change.Keeps year Sound Filled) (made : change.menu.machine year = .ok machine)
    (sound : Sound s) (filled : state ∈ change.awaiting → Filled s) {logged : LoggedCall}
    (mem : logged ∈ ((Interpreter.mk machine classify).logged.step now state s event (b, [])).env.2)
    (here : logged.state = change.sequel.protection.call) :
    ∃ context env, Sound context ∧ Filled context ∧
      logged.result = (withPin change.sequel.protection.work context event env).result := by
  have compiled := (Bindings.wellFormed_of_resolve made).2
  obtain ⟨hops, p, stopped, walk, found, madeAt⟩ := Interpreter.made_of_logged mem
  obtain ⟨sound', filled'⟩ := walk.maintains compiled keeps.maintains ⟨sound, filled⟩
  have stands : p.state = change.sequel.protection.call := madeAt.here.trans here
  have awaits : p.state ∈ change.awaiting := by simp [awaiting, stands]
  obtain ⟨call, calls, answered⟩ := madeAt.answer
  obtain ⟨stopped', call', serves⟩ := Menu.exists_serves made change.mem_sequels
  cases Option.some.inj ((stands ▸ found).symm.trans serves.found)
  cases Option.some.inj (calls.symm.trans serves.calls)
  exact ⟨p.context, p.env, sound', filled' awaits, by rw [← answered, serves.service]⟩

end Change.Keeps

end Invariant

/-- Where a conversation of the menu may stand that began with `s`, in which year, and with which context. The years
never decrease; each turn may meet any backends. -/
inductive Menu.Visits (menu : Menu) (s : Subscriber) : Int → String → Subscriber → Prop
  | start (year : Int) : Visits menu s year menu.definition.initial s
  | turn {year later : Int} {state : String} {t : Subscriber} {machine : Machine Subscriber Backends} :
      Visits menu s year state t → year ≤ later → menu.machine later = .ok machine →
      ∀ (classify : ServiceError → Failure) (now : Instant) (event : Event) (b : Backends),
      Visits menu s later (Interpreter.step { machine, classify } now state t event b).state
        (Interpreter.step { machine, classify } now state t event b).context

/-- A conversation goes on where the candidate for an event leads, if that state waits. -/
theorem Menu.Visits.onward {menu : Menu} {s t : Subscriber} {year : Int} {state : String}
    (visits : menu.Visits s year state t) {event : Event} {route : Route}
    (taken : menu.taken? year state t event = some route) (settles : menu.Settles route.target false) :
    menu.Visits s year route.target
      ((menu.bindings year).perform route.actions (Context.setFeedback none t) event) := by
  obtain ⟨machine, made⟩ := menu.exists_machine year
  have turn : Interpreter.step { machine } .epoch state t event ({} : Backends) = _ :=
    Menu.step_of_settles made taken settles
  have next := visits.turn (Int.le_refl year) made ServiceError.classify .epoch event {}
  rw [turn] at next
  exact next

/-- An invariant holds all along a conversation, if it holds at its beginning and is not lost with the years. -/
theorem Menu.Visits.maintained {menu : Menu} {P : Int → String → Subscriber → Prop} {s t : Subscriber} {year : Int}
    {state : String} (visits : menu.Visits s year state t)
    (maintains : ∀ year, (menu.bindings year).Maintains menu.definition (P year))
    (ages : ∀ year later state t, year ≤ later → P year state t → P later state t)
    (begins : ∀ year, P year menu.definition.initial s) : P year state t := by
  induction visits with
  | start year => exact begins year
  | turn _ passes made classify now event b ih =>
    exact Interpreter.maintains_step _ (Bindings.wellFormed_of_resolve made).2 (maintains _) now event b
      (ages _ _ _ _ passes ih)

/-- What the turns of a change keep is kept by its conversations. -/
theorem Change.kept (change : Change) {Sound : Int → Subscriber → Prop} {Filled : Subscriber → Prop}
    {s t : Subscriber} {year : Int} {state : String} (keeps : ∀ year, change.Keeps year (Sound year) Filled)
    (ages : ∀ year later s, year ≤ later → Sound year s → Sound later s) (begins : ∀ year, Sound year s)
    (visits : change.menu.Visits s year state t) : Sound year t ∧ (state ∈ change.awaiting → Filled t) :=
  visits.maintained (fun year => (keeps year).maintains)
    (fun _ _ _ _ passes kept => ⟨ages _ _ _ passes kept.1, kept.2⟩)
    fun year => ⟨begins year, fun awaits => absurd awaits change.initial_not_mem_awaiting⟩

/-- Where keystrokes lead from a state and a context, a turn for each, with the backends as they are for all of
them. -/
def typed (machine : Machine Subscriber Backends) (b : Backends) (stand : String × Subscriber) (inputs : List String) :
    String × Subscriber :=
  inputs.foldl (fun (state, t) input =>
    let rest := Interpreter.step { machine } .epoch state t { kind := .transit, input } b
    (rest.state, rest.context)) stand

theorem Menu.Visits.typed {menu : Menu} {s : Subscriber} {year : Int} {machine : Machine Subscriber Backends}
    {state : String} {t : Subscriber} (visits : menu.Visits s year state t) (made : menu.machine year = .ok machine)
    (b : Backends) (inputs : List String) :
    menu.Visits s year (Menus.typed machine b (state, t) inputs).1 (Menus.typed machine b (state, t) inputs).2 := by
  induction inputs generalizing state t with
  | nil => exact visits
  | cons input inputs ih => exact ih (.turn visits (Int.le_refl year) made _ _ _ _)

end DialMenu.Menus
