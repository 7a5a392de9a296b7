import DialMenu.Proofs.Interpreter.Entrance

/-!
Invariants of turns, said of the definition. A property of the state and the context that every candidate keeps holds at
every position that a turn passes, and where it comes to rest.
-/

namespace DialMenu

variable {C σ : Type} [Context C] {b : Bindings C σ} {definition : Definition}

/-- Every candidate keeps the property, and no feedback tag shows in it. The candidate for the event of the turn is
judged before the tag is cleared, and taken after that. -/
structure Bindings.Maintains (b : Bindings C σ) (definition : Definition) (P : String → C → Prop) : Prop where
  feedback : ∀ id tag context, P id context → P id (Context.setFeedback tag context)
  route : ∀ id source, definition.state? id = some source → ∀ route ∈ source.routes, ∀ judged context event,
    context = judged ∨ context = Context.setFeedback none judged → P id context →
    b.admits route.guard judged event = true → P route.target (b.perform route.actions context event)

variable {P : String → C → Prop} {i : Interpreter C σ} {now : Instant} {event : Event} {start p q : Position C σ}
  {hops : List Hop} {disposition : Disposition}

/-- The effect of a state leaves the property as it is; what is new in the context is a tag at most. -/
theorem Bindings.Maintains.effect (maintains : b.Maintains definition P) {state : Machine.State C σ}
    {trigger : Trigger} {context : C} {judged : Event} {env : σ}
    (effect : Effect i event p state trigger context judged env) (holds : P p.state p.context) : P p.state context := by
  cases effect with
  | raise => exact maintains.feedback _ _ _ holds
  | done | error => exact holds

theorem Walk.maintains (walk : Walk i now event start hops p) (compiled : b.compile definition = .ok i.machine)
    (maintains : b.Maintains definition P) (holds : P start.state start.context) : P p.state p.context := by
  induction walk with
  | @event state t after found first ran =>
    obtain rfl := Transition.sequence_iff.1 ran
    obtain ⟨source, declared, same⟩ := Bindings.exists_declared compiled found
    obtain ⟨route, taken, here⟩ := Route.Compiled.exists_first (same.on event.kind) first
    have inside := List.mem_of_find?_eq_some taken
    have admitted := List.find?_some taken
    dsimp only
    rw [here.target, here.apply_eq]
    exact maintains.route _ _ declared route (Definition.State.candidates_subset_routes inside) _ _ _ (.inr rfl)
      (maintains.feedback _ _ _ holds) admitted
  | @automatic hops p state trigger context judged env t after walk found proceeds fresh effect first ran ih =>
    obtain rfl := Transition.sequence_iff.1 ran
    obtain ⟨source, declared, same⟩ := Bindings.exists_declared compiled found
    obtain ⟨route, inside, here⟩ := effect.exists_route same first.mem
    obtain ⟨_, _, _, admits, _⟩ := first
    dsimp only
    rw [here.target, here.apply_eq]
    exact maintains.route _ _ declared route (Definition.State.automaticRoutes_subset_routes inside) _ _ _ (.inl rfl)
      (maintains.effect effect ih) (here.admits_iff.1 admits)

theorem Ending.maintains (ending : Ending i event hops p disposition q) (maintains : b.Maintains definition P)
    (holds : P p.state p.context) : P q.state q.context := by
  cases ending with
  | outside | final | waiting | again => exact holds
  | unrouted _ _ _ effect _ =>
    have kept := maintains.effect effect holds
    exact kept

/-- Where a turn begins with the property it comes to rest with it. -/
theorem Interpreter.maintains_step (i : Interpreter C σ) (compiled : b.compile definition = .ok i.machine)
    (maintains : b.Maintains definition P) (now : Instant) {state : String} {context : C} (event : Event) (env : σ)
    (holds : P state context) :
    P (i.step now state context event env).state (i.step now state context event env).context := by
  rcases i.step_cases now state context event env with
    ⟨-, same⟩ | ⟨current, -, -, same⟩ | ⟨current, last, -, -, walk, ending⟩
  · rw [same]
    exact holds
  · rw [same]
    exact holds
  · exact ending.maintains maintains (walk.maintains compiled maintains holds)

end DialMenu
