import DialMenu.Proofs.Menus.PinTurn

/-!
Short turns of a menu. The first candidate whose guard holds is taken. Where it leads to a state that waits the turn is
over; where it leads to one that raises and has a single way on, one more hop follows.
-/

namespace DialMenu

/-- The first hop of a walk is that of the candidate which the event selects. -/
theorem Walk.exists_selected {C σ : Type} [Context C] {i : Interpreter C σ} {now : Instant} {event : Event}
    {start p : Position C σ} {hops : List Hop} (walk : Walk i now event start hops p) :
    ∃ (state : Machine.State C σ) (t : Transition C), i.machine.state? start.state = some state ∧
      t.FirstEligible (state.on event.kind) start.context event ∧ hops.head?.map Hop.target = some t.target := by
  induction walk with
  | @event state t after found first ran => exact ⟨state, t, found, first, rfl⟩
  | automatic walk _ _ _ _ _ _ ih =>
    obtain ⟨state, t, found, first, target⟩ := ih
    obtain ⟨hop, rest, rfl, -, -⟩ := walk.head
    exact ⟨state, t, found, first, target⟩

namespace Menus.Menu

/-- The candidate that a menu takes for an event. -/
def taken? (menu : Menu) (year : Int) (id : String) (s : Subscriber) (event : Event) : Option Route :=
  (menu.definition.state? id).bind fun source =>
    (source.candidates event.kind).find? fun route => (menu.bindings year).admits route.guard s event

variable {year : Int} {menu : Menu} {machine : Machine Subscriber Backends} {classify : ServiceError → Failure}
  {now : Instant} {id : String} {s : Subscriber} {event : Event} {b : Backends} {route : Route} {hop : Hop}

theorem taken?_eq {routes : List Route}
    (declared : (menu.definition.state? id).map (·.candidates event.kind) = some routes) :
    menu.taken? year id s event = routes.find? fun route => (menu.bindings year).admits route.guard s event := by
  obtain ⟨source, found, rfl⟩ := Option.map_eq_some_iff.1 declared
  rw [taken?, found]
  rfl

/-- The first hop of a turn leads where the candidate that is taken leads. -/
theorem exists_taken (made : menu.machine year = .ok machine)
    (head : (Interpreter.step { machine, classify } now id s event b).trace.hops.head? = some hop) :
    ∃ route, menu.taken? year id s event = some route ∧ route.target = hop.target := by
  have compiled := (Bindings.wellFormed_of_resolve made).2
  rcases Interpreter.step_cases { machine, classify } now id s event b with
    ⟨-, same⟩ | ⟨current, -, -, same⟩ | ⟨-, last, -, -, walk, -⟩
  · simp [same] at head
  · simp [same] at head
  · obtain ⟨state, t, found, first, target⟩ := walk.exists_selected
    rw [head, Option.map_some, Option.some_inj] at target
    obtain ⟨source, declared, same⟩ := Bindings.exists_declared compiled found
    obtain ⟨route, taken, here⟩ := Route.Compiled.exists_first (same.on event.kind) first
    refine ⟨route, ?_, here.target.symm.trans target.symm⟩
    rw [taken?, declared]
    exact taken

/-- The hop of the candidate that is taken. -/
theorem walk_of_taken (made : menu.machine year = .ok machine) (taken : menu.taken? year id s event = some route) :
    Walk (Interpreter.mk machine classify) now event ⟨id, s, b⟩
      [{ origin := id, target := route.target, trigger := .event event.kind, timestamp := now }]
      ⟨route.target, (menu.bindings year).perform route.actions (Context.setFeedback none s) event, b⟩ := by
  have compiled := (Bindings.wellFormed_of_resolve made).2
  obtain ⟨source, declared, first⟩ := Option.bind_eq_some_iff.1 taken
  obtain ⟨state, found, same⟩ := Bindings.exists_compiled compiled declared
  obtain ⟨t, selected, here⟩ := Route.Compiled.exists_firstEligible (same.on event.kind) first
  have walk : Walk (Interpreter.mk machine classify) now event ⟨id, s, b⟩ _ _ :=
    .event found selected (t.sequence_apply _ event)
  rw [here.target, here.apply_eq] at walk
  exact walk

/-- A turn whose candidate leads to a state that settles. -/
theorem step_of_settles (made : menu.machine year = .ok machine) (taken : menu.taken? year id s event = some route)
    {final : Bool} (settles : menu.Settles route.target final) :
    Interpreter.step { machine, classify } now id s event b =
      { state := route.target
        context := (menu.bindings year).perform route.actions (Context.setFeedback none s) event
        disposition := if final then .finished else .waiting
        trace := { hops := [
          { origin := id, target := route.target, trigger := .event event.kind, timestamp := now }] }
        env := b } :=
  Interpreter.step_of_walk (walk_of_taken made taken)
    (settles.ending (Bindings.wellFormed_of_resolve made).2 _)

/-- A turn whose candidate leads to a state that asks again. -/
theorem step_of_asksAgain (made : menu.machine year = .ok machine) (taken : menu.taken? year id s event = some route)
    {raise : EntryRaise} {page : String} (again : menu.AsksAgain route.target raise page)
    (settles : menu.Settles page false) :
    Interpreter.step { machine, classify } now id s event b =
      { state := page
        context := Context.setFeedback raise.feedback
          ((menu.bindings year).perform route.actions (Context.setFeedback none s) event)
        disposition := .waiting
        trace := { hops := [
          { origin := id, target := route.target, trigger := .event event.kind, timestamp := now },
          { origin := route.target, target := page, trigger := .raise raise.kind, timestamp := now }] }
        env := b } := by
  have compiled := (Bindings.wellFormed_of_resolve made).2
  have walk : Walk (Interpreter.mk machine classify) now event ⟨id, s, b⟩ _ _ := walk_of_taken made taken
  have fresh : ¬ Spent [{ origin := id, target := route.target, trigger := .event event.kind, timestamp := now }]
      route.target := by
    simp [Spent, Hop.isAutomatic, Trigger.isRaise, Trigger.isOutcome]
  exact Interpreter.step_of_walk (again.walk compiled walk fresh) (settles.ending compiled _)

end Menus.Menu

end DialMenu
