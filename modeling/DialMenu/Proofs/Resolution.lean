import DialMenu.Proofs.Compilation
import DialMenu.Proofs.Definition.WellFormed
import Mathlib.Tactic.MkIffOfInductiveProp

/-!
Names and their functions. The check of a definition and the compilation go over it by different routes; both come past
every name that is used, so the compilation fails over a name exactly where the check reports one.
-/

namespace DialMenu

/-- The name has a function of its kind. -/
def Names.binds (names : Names) : NameKind → String → Bool
  | .guard => names.guard
  | .action => names.action
  | .service => names.service

/-- The names that a candidate refers to. -/
@[mk_iff]
inductive Route.Uses (route : Route) : NameKind → String → Prop
  | guard {name : String} : route.guard = some name → Uses route .guard name
  | action {name : String} : name ∈ route.actions → Uses route .action name

/-- The names that a call refers to. -/
@[mk_iff]
inductive Call.Uses (call : Call) : NameKind → String → Prop
  | service : Uses call .service call.service
  | done {route : Route} {kind : NameKind} {name : String} : route ∈ call.onDone → route.Uses kind name →
      Uses call kind name
  | error {route : Route} {kind : NameKind} {name : String} : route ∈ call.onError → route.Uses kind name →
      Uses call kind name

/-- The names that a state refers to. -/
@[mk_iff]
inductive Definition.State.Uses (state : State) : NameKind → String → Prop
  | event {event : EventKind} {route : Route} {kind : NameKind} {name : String} : route ∈ state.candidates event →
      route.Uses kind name → Uses state kind name
  | call {call : Call} {kind : NameKind} {name : String} : state.call = some call → call.Uses kind name →
      Uses state kind name

/-- The name is used anywhere in the definition. -/
def Definition.Uses (definition : Definition) (kind : NameKind) (name : String) : Prop :=
  ∃ id state, definition.state? id = some state ∧ state.Uses kind name

namespace Definition.State

theorem exists_candidate_iff (state : State) {P : Route → Prop} :
    (∃ entry ∈ state.on.entries, ∃ route ∈ entry.2, P route) ↔ ∃ event, ∃ route ∈ state.candidates event, P route := by
  simp only [mem_candidates_iff]
  constructor
  · rintro ⟨⟨event, routes⟩, mem, route, inside, holds⟩
    exact ⟨event, route, ⟨routes, mem, inside⟩, holds⟩
  · rintro ⟨event, route, ⟨routes, mem, inside⟩, holds⟩
    exact ⟨(event, routes), mem, route, inside, holds⟩

/-- Another way past the names of a state: those of all its candidates, and then the service. -/
theorem uses_iff_routes {state : State} {kind : NameKind} {name : String} : state.Uses kind name ↔
    (∃ route ∈ state.routes, route.Uses kind name) ∨
      ∃ call, state.call = some call ∧ kind = .service ∧ name = call.service := by
  simp only [mem_routes_iff]
  constructor
  · rintro (⟨mem, uses⟩ | ⟨called, service | ⟨mem, uses⟩ | ⟨mem, uses⟩⟩)
    · exact .inl ⟨_, .inl ⟨_, mem⟩, uses⟩
    · exact .inr ⟨_, called, rfl, rfl⟩
    · exact .inl ⟨_, .inr ⟨_, called, .inl mem⟩, uses⟩
    · exact .inl ⟨_, .inr ⟨_, called, .inr mem⟩, uses⟩
  · rintro (⟨route, ⟨event, mem⟩ | ⟨call, called, mem | mem⟩, uses⟩ | ⟨call, called, rfl, rfl⟩)
    · exact .event mem uses
    · exact .call called (.done mem uses)
    · exact .call called (.error mem uses)
    · exact .call called .service

end Definition.State

/-- The names that are used are looked up: if all of them are bound there is a result, and if there is none the error
names one that is not. -/
inductive LooksUp {α : Type} (names : Names) (machine : String) (Uses : NameKind → String → Prop) :
    Except BuildError α → Prop
  | ok {found : α} : (∀ kind name, Uses kind name → names.binds kind name = true) →
      LooksUp names machine Uses (.ok found)
  | error {kind : NameKind} {name : String} : Uses kind name → names.binds kind name = false →
      LooksUp names machine Uses (.error (.invalidDefinition machine [.unresolvedName "*" kind name]))

namespace LooksUp

variable {α β κ : Type} {names : Names} {machine : String} {Uses Uses' : NameKind → String → Prop}
  {x : Except BuildError α}

theorem congr (looks : LooksUp names machine Uses x) (same : ∀ kind name, Uses kind name ↔ Uses' kind name) :
    LooksUp names machine Uses' x := by
  cases looks with
  | ok bound => exact .ok fun kind name uses => bound kind name ((same kind name).2 uses)
  | error uses unbound => exact .error ((same _ _).1 uses) unbound

theorem exists_ok_iff (looks : LooksUp names machine Uses x) :
    (∃ found, x = .ok found) ↔ ∀ kind name, Uses kind name → names.binds kind name = true := by
  cases looks with
  | ok bound => exact iff_of_true ⟨_, rfl⟩ bound
  | error uses unbound => exact iff_of_false nofun fun bound => by simp [bound _ _ uses] at unbound

theorem exists_unbound (looks : LooksUp names machine Uses x) {err : BuildError} (failed : x = .error err) :
    ∃ kind name, Uses kind name ∧ names.binds kind name = false ∧
      err = .invalidDefinition machine [.unresolvedName "*" kind name] := by
  cases looks with
  | ok bound => cases failed
  | @error kind name uses unbound =>
    cases failed
    exact ⟨kind, name, uses, unbound, rfl⟩

theorem pure (found : α) : LooksUp names machine (fun _ _ => False) (.ok found) := .ok fun _ _ => False.elim

theorem map (f : α → β) (looks : LooksUp names machine Uses x) : LooksUp names machine Uses (f <$> x) := by
  cases looks with
  | ok bound => exact .ok bound
  | error uses unbound => exact .error uses unbound

theorem bind {f : α → Except BuildError β} (first : LooksUp names machine Uses x)
    (second : ∀ found, LooksUp names machine Uses' (f found)) :
    LooksUp names machine (fun kind name => Uses kind name ∨ Uses' kind name) (x >>= f) := by
  cases first with
  | error uses unbound => exact .error (.inl uses) unbound
  | @ok found bound =>
    change LooksUp names machine _ (f found)
    have looks := second found
    generalize f found = y at looks
    cases looks with
    | ok bound' => exact .ok fun kind name => Or.rec (bound kind name) (bound' kind name)
    | error uses unbound => exact .error (.inr uses) unbound

theorem mapM {f : κ → Except BuildError β} {Uses : κ → NameKind → String → Prop}
    (each : ∀ item, LooksUp names machine (Uses item) (f item)) (items : List κ) :
    LooksUp names machine (fun kind name => ∃ item ∈ items, Uses item kind name) (items.mapM f) := by
  induction items with
  | nil => exact (pure []).congr (by simp)
  | cons item items ih =>
    rw [List.mapM_cons]
    exact ((each item).bind fun first => ih.bind fun rest => pure (first :: rest)).congr (by simp)

theorem entries {f : κ → α → Except BuildError β} {Uses : κ → α → NameKind → String → Prop}
    (each : ∀ key value, LooksUp names machine (Uses key value) (f key value)) (entries : List (κ × α)) :
    LooksUp names machine (fun kind name => ∃ entry ∈ entries, Uses entry.1 entry.2 kind name)
      (Entries.traverse f entries) := by
  induction entries with
  | nil => exact (pure []).congr (by simp)
  | cons entry entries ih =>
    obtain ⟨key, value⟩ := entry
    have traverse_cons : Entries.traverse f ((key, value) :: entries) =
        f key value >>= fun changed => Entries.traverse f entries >>= fun others => .ok ((key, changed) :: others) := by
      rw [Entries.traverse]
      cases f key value with
      | error => rfl
      | ok changed => cases Entries.traverse f entries <;> rfl
    rw [traverse_cons]
    exact ((each key value).bind fun changed => ih.bind fun others => pure ((key, changed) :: others)).congr (by simp)

theorem traverse [Ord κ] {f : κ → α → Except BuildError β} {Uses : κ → α → NameKind → String → Prop}
    (each : ∀ key value, LooksUp names machine (Uses key value) (f key value)) (table : Table κ α) :
    LooksUp names machine (fun kind name => ∃ entry ∈ table.entries, Uses entry.1 entry.2 kind name)
      (table.traverse f) := by
  have looks := entries each table.entries
  unfold Table.traverse
  split
  · rename_i failed
    rw [failed] at looks
    cases looks with
    | error uses unbound => exact .error uses unbound
  · rename_i done
    rw [done] at looks
    cases looks with
    | ok bound => exact .ok bound

end LooksUp

namespace Bindings

variable {C σ : Type} (b : Bindings C σ) (machine : String)

theorem looksUp_find {α : Type} (kind : NameKind) {lookup : String → Option α}
    (own : ∀ name, b.names.binds kind name = (lookup name).isSome) (name : String) :
    LooksUp b.names machine (fun kind' name' => kind' = kind ∧ name' = name) (find machine kind lookup name) := by
  unfold find
  cases found : lookup name with
  | some found =>
    refine .ok ?_
    rintro _ _ ⟨rfl, rfl⟩
    rw [own, found, Option.isSome_some]
  | none => exact .error ⟨rfl, rfl⟩ (by rw [own, found, Option.isSome_none])

theorem looksUp_compileRoute (route : Route) : LooksUp b.names machine route.Uses (b.compileRoute machine route) := by
  have actions := LooksUp.mapM (b.looksUp_find machine .action fun _ => rfl) route.actions
  have rest (guard : Option (Guard C)) :=
    actions.bind fun actions => LooksUp.pure (Transition.mk route.target guard actions)
  unfold compileRoute
  cases guarded : route.guard with
  | none =>
    refine ((LooksUp.pure none).bind rest).congr fun kind name => ?_
    simp [Route.uses_iff, guarded]
  | some guard =>
    have found := (b.looksUp_find machine .guard (fun _ => rfl) guard).map some
    refine (found.bind rest).congr fun kind name => ?_
    simp [Route.uses_iff, guarded, and_comm, eq_comm]

theorem looksUp_compileCall (call : Call) : LooksUp b.names machine call.Uses (b.compileCall machine call) := by
  have service := b.looksUp_find machine .service (fun _ => rfl) call.service
  have onDone := LooksUp.mapM (b.looksUp_compileRoute machine) call.onDone
  have onError := LooksUp.mapM (b.looksUp_compileRoute machine) call.onError
  refine (service.bind fun service => onDone.bind fun onDone => onError.bind fun onError =>
    LooksUp.pure (Invocation.mk call.service service onDone onError)).congr fun kind name => ?_
  simp [Call.uses_iff]

theorem looksUp_compileState (id : String) (state : Definition.State) :
    LooksUp b.names machine state.Uses (b.compileState machine id state) := by
  have on := LooksUp.traverse (fun _ routes => LooksUp.mapM (b.looksUp_compileRoute machine) routes) state.on
  have rest (on : Table EventKind (List (Transition C))) (call : Option (Invocation C σ)) :
      LooksUp b.names machine (fun _ _ => False) (.ok (Machine.State.mk id state.kind state.tags state.raise call
        fun kind => (on.get? kind).getD [])) := .pure _
  unfold compileState
  cases called : state.call with
  | none =>
    refine (on.bind fun on => (LooksUp.pure none).bind fun call => rest on call).congr fun kind name => ?_
    simp [Definition.State.uses_iff, called, ← state.exists_candidate_iff]
  | some call =>
    have found := (b.looksUp_compileCall machine call).map some
    refine (on.bind fun on => found.bind fun call => rest on call).congr fun kind name => ?_
    simp [Definition.State.uses_iff, called, ← state.exists_candidate_iff]

/-- The compilation of a definition comes past all its names. -/
theorem looksUp_compile (definition : Definition) :
    LooksUp b.names definition.id definition.Uses (b.compile definition) := by
  have states := LooksUp.traverse (b.looksUp_compileState definition.id) definition.states
  refine (states.bind fun states =>
    LooksUp.pure (Machine.mk definition.id definition.initial states)).congr fun kind name => ?_
  simp [Definition.Uses, Definition.state?, Table.mem_entries_iff]

end Bindings

namespace Definition

variable {names : Names} {id : String} {violation : Violation}

/-- The check of a candidate reports its names that are not bound. -/
theorem Route.mem_unresolved_iff {route : Route} : violation ∈ Route.unresolved names id route ↔
    ∃ kind name, route.Uses kind name ∧ names.binds kind name = false ∧ violation = .unresolvedName id kind name := by
  unfold Route.unresolved
  simp only [List.mem_append, List.mem_map, List.mem_filter, Bool.not_eq_true', Option.mem_toList,
    DialMenu.Route.uses_iff]
  constructor
  · rintro (⟨name, ⟨named, unbound⟩, rfl⟩ | ⟨name, ⟨mem, unbound⟩, rfl⟩)
    · exact ⟨.guard, name, .inl ⟨named, rfl⟩, unbound, rfl⟩
    · exact ⟨.action, name, .inr ⟨mem, rfl⟩, unbound, rfl⟩
  · rintro ⟨kind, name, ⟨named, rfl⟩ | ⟨mem, rfl⟩, unbound, rfl⟩
    · exact .inl ⟨name, ⟨named, unbound⟩, rfl⟩
    · exact .inr ⟨name, ⟨mem, unbound⟩, rfl⟩

/-- The check of a state goes over all its candidates, and then looks at the service. -/
theorem State.mem_unresolved_iff {state : State} : violation ∈ state.unresolved names id ↔
    ∃ kind name, state.Uses kind name ∧ names.binds kind name = false ∧ violation = .unresolvedName id kind name := by
  unfold State.unresolved
  simp only [List.mem_append, List.mem_flatMap, Route.mem_unresolved_iff, State.uses_iff_routes, List.mem_map,
    List.mem_filter, Option.mem_toList, Bool.not_eq_true']
  constructor
  · rintro (⟨route, mem, kind, name, uses, unbound, rfl⟩ | ⟨name, ⟨⟨call, called, rfl⟩, unbound⟩, rfl⟩)
    · exact ⟨kind, name, .inl ⟨route, mem, uses⟩, unbound, rfl⟩
    · exact ⟨.service, call.service, .inr ⟨call, called, rfl, rfl⟩, unbound, rfl⟩
  · rintro ⟨kind, name, ⟨route, mem, uses⟩ | ⟨call, called, rfl, rfl⟩, unbound, rfl⟩
    · exact .inl ⟨route, mem, kind, name, uses, unbound, rfl⟩
    · exact .inr ⟨_, ⟨⟨call, called, rfl⟩, unbound⟩, rfl⟩

theorem mem_nameViolations_iff {definition : Definition} : violation ∈ definition.nameViolations names ↔
    ∃ id state kind name, definition.state? id = some state ∧ state.Uses kind name ∧ names.binds kind name = false ∧
      violation = .unresolvedName id kind name := by
  simp [nameViolations, State.mem_unresolved_iff, Table.mem_entries_iff, state?]

/-- The check reports no name exactly if all names that are used are bound. -/
theorem nameViolations_eq_nil {definition : Definition} :
    definition.nameViolations names = [] ↔ ∀ kind name, definition.Uses kind name → names.binds kind name = true := by
  rw [List.eq_nil_iff_forall_not_mem]
  simp only [mem_nameViolations_iff, Uses]
  constructor
  · rintro none kind name ⟨id, state, found, uses⟩
    exact Bool.of_not_eq_false fun unbound => none _ ⟨id, state, kind, name, found, uses, unbound, rfl⟩
  · rintro bound _ ⟨id, state, kind, name, found, uses, unbound, rfl⟩
    simp [bound kind name ⟨id, state, found, uses⟩] at unbound

/-- The machine has the states of the definition under their own names, each with what its declaration says, and begins
where the definition begins. -/
structure Compiled {C σ : Type} (b : Bindings C σ) (definition : Definition) (machine : Machine C σ) : Prop where
  id : machine.id = definition.id
  initial : machine.initial = definition.initial
  keys : machine.states.keys = definition.states.keys
  own : ∀ id state, machine.state? id = some state → state.id = id
  states : ∀ id, Option.Rel (State.Compiled b) (definition.state? id) (machine.state? id)

end Definition

theorem Table.keys_traverse {κ α β ε : Type} [Ord κ] {f : κ → α → Except ε β} {table : Table κ α} {changed : Table κ β}
    (done : table.traverse f = .ok changed) : changed.keys = table.keys := by
  unfold traverse at done
  split at done
  · cases done
  · rename_i others
    cases done
    exact Entries.keys_traverse others

namespace Bindings

variable {C σ : Type} {b : Bindings C σ} {definition : Definition} {machine : Machine C σ}

theorem id_of_compileState {name id : String} {source : Definition.State} {state : Machine.State C σ}
    (done : b.compileState name id source = .ok state) : state.id = id := by
  unfold compileState at done
  obtain ⟨on, -, done⟩ := Except.bind_eq_ok_iff.1 done
  cases called : source.call with
  | none | some call =>
    rw [called] at done
    obtain ⟨call, -, done⟩ := Except.bind_eq_ok_iff.1 done
    cases done
    rfl

theorem compiled_definition (done : b.compile definition = .ok machine) : definition.Compiled b machine := by
  have states := compiled_of_compile done
  unfold compile at done
  obtain ⟨listed, traversed, done⟩ := Except.bind_eq_ok_iff.1 done
  cases done
  refine ⟨rfl, rfl, Table.keys_traverse traversed, fun id state found => ?_, states⟩
  have related := Table.get?_traverse traversed id
  rw [show listed.get? id = some state from found] at related
  generalize definition.states.get? id = source at related
  cases related with
  | some here => exact id_of_compileState here

theorem resolve_eq (b : Bindings C σ) (definition : Definition) : b.resolve definition =
    if definition.violations b.names = [] then b.compile definition
    else .error (.invalidDefinition definition.id (definition.violations b.names)) := by
  unfold resolve
  split
  · rename_i clear
    rw [if_pos clear]
  · rename_i defects
    rw [if_neg defects]

/-- A definition becomes a machine exactly if its check finds nothing; otherwise the error is what the check finds. The
machine has what the definition says. Without the check, the compilation fails exactly if some name that is used is not
bound, and the error names one. -/
theorem resolve_exact (b : Bindings C σ) (definition : Definition) :
    ((∃ machine, b.resolve definition = .ok machine) ↔ definition.violations b.names = []) ∧
      (∀ err, b.resolve definition = .error err →
        err = .invalidDefinition definition.id (definition.violations b.names)) ∧
      (∀ machine, b.resolve definition = .ok machine → definition.Compiled b machine) ∧
      ((∃ err, b.compile definition = .error err) ↔
        ∃ kind name, definition.Uses kind name ∧ b.names.binds kind name = false) ∧
      ∀ err, b.compile definition = .error err → ∃ kind name, definition.Uses kind name ∧
        b.names.binds kind name = false ∧ err = .invalidDefinition definition.id [.unresolvedName "*" kind name] := by
  have looks := b.looksUp_compile definition
  have bound (clear : definition.violations b.names = []) : ∃ machine, b.compile definition = .ok machine :=
    looks.exists_ok_iff.2 (Definition.nameViolations_eq_nil.1 (List.append_eq_nil_iff.1 clear).2)
  have fails : (∃ err, b.compile definition = .error err) ↔
      ∃ kind name, definition.Uses kind name ∧ b.names.binds kind name = false := by
    constructor
    · rintro ⟨err, failed⟩
      obtain ⟨kind, name, uses, unbound, -⟩ := looks.exists_unbound failed
      exact ⟨kind, name, uses, unbound⟩
    · rintro ⟨kind, name, uses, unbound⟩
      cases made : b.compile definition with
      | error err => exact ⟨err, rfl⟩
      | ok machine => simp [looks.exists_ok_iff.1 ⟨machine, made⟩ kind name uses] at unbound
  rw [resolve_eq]
  split
  · rename_i clear
    obtain ⟨machine, made⟩ := bound clear
    refine ⟨iff_of_true ⟨machine, made⟩ clear, fun err failed => ?_, fun _ => compiled_definition, fails, ?_⟩
    · cases made.symm.trans failed
    · exact fun _ => looks.exists_unbound
  · rename_i defects
    exact ⟨iff_of_false nofun defects, fun err failed => (Except.error.inj failed).symm, nofun, fails,
      fun _ => looks.exists_unbound⟩

end Bindings

end DialMenu
