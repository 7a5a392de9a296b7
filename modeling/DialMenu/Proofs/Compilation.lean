import DialMenu.Bindings
import Mathlib.Data.List.Forall2

/-!
What a compiled machine has of its definition: the same states with the same effects, and for every candidate
the same target with the functions that its names are bound to.
-/

namespace DialMenu

theorem Except.bind_eq_ok_iff {ε α β : Type} {x : Except ε α} {f : α → Except ε β} {b : β} :
    x >>= f = .ok b ↔ ∃ a, x = .ok a ∧ f a = .ok b := by
  cases x with
  | error err => simp [bind, Except.bind]
  | ok a => simp [bind, Except.bind]

theorem Except.map_eq_ok_iff {ε α β : Type} {f : α → β} {result : Except ε α} {b : β} :
    result.map f = .ok b ↔ ∃ a, result = .ok a ∧ f a = b := by
  cases result <;> simp [Except.map]

theorem Except.map_eq_error_iff {ε α β : Type} {f : α → β} {result : Except ε α} {err : ε} :
    result.map f = .error err ↔ result = .error err := by
  cases result <;> simp [Except.map]

theorem Except.forall₂_of_mapM_eq_ok {ε α β : Type} {f : α → Except ε β} {xs : List α} {ys : List β}
    (done : xs.mapM f = .ok ys) : List.Forall₂ (fun x y => f x = .ok y) xs ys := by
  induction xs generalizing ys with
  | nil =>
    cases done
    exact .nil
  | cons x xs ih =>
    rw [List.mapM_cons] at done
    obtain ⟨y, first, done⟩ := Except.bind_eq_ok_iff.1 done
    obtain ⟨rest, others, done⟩ := Except.bind_eq_ok_iff.1 done
    cases done
    exact .cons first (ih others)

theorem Entries.get?_traverse {κ α β ε : Type} [DecidableEq κ] {f : κ → α → Except ε β} {entries : List (κ × α)}
    {changed : List (κ × β)} (done : traverse f entries = .ok changed) (k : κ) :
    Option.Rel (fun a b => f k a = .ok b) (get? k entries) (get? k changed) := by
  induction entries generalizing changed with
  | nil =>
    cases done
    exact .none
  | cons entry rest ih =>
    obtain ⟨key, value⟩ := entry
    simp only [traverse] at done
    split at done
    · cases done
    · rename_i here
      split at done
      · cases done
      · rename_i others
        cases done
        simp only [get?]
        split
        · rename_i same
          exact .some (same ▸ here)
        · exact ih others

theorem Table.get?_traverse {κ α β ε : Type} [Ord κ] [DecidableEq κ] {f : κ → α → Except ε β} {table : Table κ α}
    {changed : Table κ β} (done : table.traverse f = .ok changed) (k : κ) :
    Option.Rel (fun a b => f k a = .ok b) (table.get? k) (changed.get? k) := by
  unfold traverse at done
  split at done
  · cases done
  · rename_i others
    cases done
    exact Entries.get?_traverse others k

variable {C σ : Type}

/-- The candidate leads where the route leads, with the functions of the route's names. -/
structure Route.Compiled (b : Bindings C σ) (route : Route) (t : Transition C) : Prop where
  target : t.target = route.target
  guard : t.guard.map some = route.guard.map b.guard
  actions : t.actions.map some = route.actions.map b.action

/-- Every compiled candidate comes from a route. -/
theorem Route.Compiled.exists_of_mem {b : Bindings C σ} {routes : List Route} {ts : List (Transition C)}
    (compiled : List.Forall₂ (Route.Compiled b) routes ts) {t : Transition C} (mem : t ∈ ts) :
    ∃ route ∈ routes, route.Compiled b t := by
  induction compiled with
  | nil => simp at mem
  | cons here _ ih =>
    rcases List.mem_cons.1 mem with rfl | later
    · exact ⟨_, List.mem_cons_self, here⟩
    · obtain ⟨route, inside, found⟩ := ih later
      exact ⟨route, List.mem_cons_of_mem _ inside, found⟩

/-- Every route is compiled to a candidate. -/
theorem Route.Compiled.exists_of_mem_routes {b : Bindings C σ} {routes : List Route} {ts : List (Transition C)}
    (compiled : List.Forall₂ (Route.Compiled b) routes ts) {route : Route} (mem : route ∈ routes) :
    ∃ t ∈ ts, route.Compiled b t := by
  induction compiled with
  | nil => simp at mem
  | cons here _ ih =>
    rcases List.mem_cons.1 mem with rfl | later
    · exact ⟨_, List.mem_cons_self, here⟩
    · obtain ⟨t, inside, found⟩ := ih later
      exact ⟨t, List.mem_cons_of_mem _ inside, found⟩

/-- The invocation calls the service of the call's name, with the candidates of the call's routes. -/
structure Call.Compiled (b : Bindings C σ) (call : Call) (c : Invocation C σ) : Prop where
  name : c.name = call.service
  service : b.service call.service = some c.service
  onDone : List.Forall₂ (Route.Compiled b) call.onDone c.onDone
  onError : List.Forall₂ (Route.Compiled b) call.onError c.onError

/-- The state does what its declaration says. -/
structure Definition.State.Compiled (b : Bindings C σ) (source : Definition.State) (state : Machine.State C σ) :
    Prop where
  kind : state.kind = source.kind
  tags : state.tags = source.tags
  raise : state.raise = source.raise
  on : ∀ kind, List.Forall₂ (Route.Compiled b) (source.candidates kind) (state.on kind)
  call : Option.Rel (Call.Compiled b) source.call state.call

namespace Definition.State.Compiled

variable {b : Bindings C σ} {source : Definition.State} {state : Machine.State C σ}

theorem isFinal_eq (compiled : source.Compiled b state) : state.isFinal = source.isFinal := by
  rw [Machine.State.isFinal, Definition.State.isFinal, compiled.kind]

theorem kind_ne_final (compiled : source.Compiled b state) (proceeds : source.isFinal = false) :
    state.kind ≠ .final :=
  compiled.kind ▸ of_decide_eq_false proceeds

theorem isSome_call (compiled : source.Compiled b state) : state.call.isSome = source.call.isSome := by
  have related := compiled.call
  generalize source.call = call, state.call = c at related ⊢
  cases related <;> rfl

theorem exists_call (compiled : source.Compiled b state) {c : Invocation C σ} (called : state.call = some c) :
    ∃ call, source.call = some call ∧ call.Compiled b c := by
  have related := compiled.call
  rw [called] at related
  generalize source.call = call at related ⊢
  cases related with
  | some here => exact ⟨_, rfl, here⟩

end Definition.State.Compiled

namespace Bindings

variable {b : Bindings C σ} {machine : String}

theorem eq_some_of_find {α : Type} {kind : NameKind} {lookup : String → Option α} {name : String} {found : α}
    (done : find machine kind lookup name = .ok found) : lookup name = some found := by
  unfold find at done
  split at done
  · rename_i bound
    cases done
    exact bound
  · cases done

theorem map_eq_of_mapM_find {α : Type} {kind : NameKind} {lookup : String → Option α} {names : List String}
    {found : List α} (done : names.mapM (find machine kind lookup) = .ok found) :
    found.map some = names.map lookup := by
  have bound := Except.forall₂_of_mapM_eq_ok done
  clear done
  induction bound with
  | nil => rfl
  | cons here _ ih => rw [List.map_cons, List.map_cons, eq_some_of_find here, ih]

theorem compiled_of_compileRoute {route : Route} {t : Transition C} (done : b.compileRoute machine route = .ok t) :
    route.Compiled b t := by
  unfold compileRoute at done
  cases named : route.guard with
  | none =>
    rw [named] at done
    obtain ⟨guard, guarded, done⟩ := Except.bind_eq_ok_iff.1 done
    obtain ⟨actions, acting, done⟩ := Except.bind_eq_ok_iff.1 done
    cases guarded
    cases done
    exact ⟨rfl, by rw [named]; rfl, map_eq_of_mapM_find acting⟩
  | some name =>
    rw [named] at done
    obtain ⟨guard, guarded, done⟩ := Except.bind_eq_ok_iff.1 done
    obtain ⟨actions, acting, done⟩ := Except.bind_eq_ok_iff.1 done
    cases bound : find machine .guard b.guard name with
    | error err =>
      rw [bound] at guarded
      cases guarded
    | ok found =>
      rw [bound] at guarded
      cases guarded
      cases done
      refine ⟨rfl, ?_, map_eq_of_mapM_find acting⟩
      rw [named, Option.map_some, Option.map_some, eq_some_of_find bound]

theorem compiled_of_mapM_compileRoute {routes : List Route} {ts : List (Transition C)}
    (done : routes.mapM (b.compileRoute machine) = .ok ts) : List.Forall₂ (Route.Compiled b) routes ts :=
  (Except.forall₂_of_mapM_eq_ok done).imp fun _ _ => compiled_of_compileRoute

theorem compiled_of_compileCall {call : Call} {c : Invocation C σ} (done : b.compileCall machine call = .ok c) :
    call.Compiled b c := by
  unfold compileCall at done
  obtain ⟨service, bound, done⟩ := Except.bind_eq_ok_iff.1 done
  obtain ⟨onDone, answered, done⟩ := Except.bind_eq_ok_iff.1 done
  obtain ⟨onError, rejected, done⟩ := Except.bind_eq_ok_iff.1 done
  cases done
  exact ⟨rfl, eq_some_of_find bound, compiled_of_mapM_compileRoute answered, compiled_of_mapM_compileRoute rejected⟩

theorem compiled_of_compileState {id : String} {source : Definition.State} {state : Machine.State C σ}
    (done : b.compileState machine id source = .ok state) : source.Compiled b state := by
  unfold compileState at done
  obtain ⟨on, listed, done⟩ := Except.bind_eq_ok_iff.1 done
  have candidates (kind : EventKind) :
      List.Forall₂ (Route.Compiled b) (source.candidates kind) ((on.get? kind).getD []) := by
    have related := Table.get?_traverse listed kind
    unfold Definition.State.candidates
    generalize source.on.get? kind = declared, on.get? kind = found at related ⊢
    cases related with
    | none => exact .nil
    | some compiled => exact compiled_of_mapM_compileRoute compiled
  cases called : source.call with
  | none =>
    rw [called] at done
    obtain ⟨call, none, done⟩ := Except.bind_eq_ok_iff.1 done
    cases none
    cases done
    exact ⟨rfl, rfl, rfl, candidates, called ▸ .none⟩
  | some call =>
    rw [called] at done
    obtain ⟨c, some, done⟩ := Except.bind_eq_ok_iff.1 done
    cases compiled : b.compileCall machine call with
    | error err =>
      rw [compiled] at some
      cases some
    | ok c =>
      rw [compiled] at some
      cases some
      cases done
      exact ⟨rfl, rfl, rfl, candidates, called ▸ .some (compiled_of_compileCall compiled)⟩

/-- A compiled machine has the states of its definition and no others. -/
theorem compiled_of_compile {definition : Definition} {compiled : Machine C σ}
    (done : b.compile definition = .ok compiled) (id : String) :
    Option.Rel (Definition.State.Compiled b) (definition.state? id) (compiled.state? id) := by
  unfold compile at done
  obtain ⟨states, listed, done⟩ := Except.bind_eq_ok_iff.1 done
  cases done
  have related := Table.get?_traverse listed id
  unfold Definition.state? Machine.state?
  generalize definition.states.get? id = declared, states.get? id = found at related ⊢
  cases related with
  | none => exact .none
  | some compiled => exact .some (compiled_of_compileState compiled)

end Bindings

end DialMenu
