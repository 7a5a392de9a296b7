import DialMenu.Cycle
import DialMenu.Definition.Violation

/-!
Checks of machine definitions. A check reports every defect: those of the graph state by state, then one
cycle of states that would go on without ever waiting for input, then the names that are bound to nothing.
-/

namespace DialMenu

/-- Which names are bound. -/
structure Names where
  guard : String → Bool
  action : String → Bool
  service : String → Bool

namespace Definition

/-- The state goes on by itself when it is entered. -/
def State.isAutomatic (state : State) : Bool := (state.raise.isSome || state.call.isSome) && !state.isFinal

/-- The candidates from which the state goes on by itself. A raise comes before a call. -/
def State.automaticRoutes (state : State) : List Route :=
  match state.raise with
  | some raise => state.candidates raise.kind
  | none => state.callRoutes

/-- Where the machine may go on to from `id` without input, to go on again from there. -/
def automaticTargets (definition : Definition) (id : String) : List String :=
  match definition.state? id with
  | some state =>
    (state.automaticRoutes.map Route.target).filter fun target => (definition.state? target).any State.isAutomatic
  | none => []

/-- A cycle of states that go on by themselves. -/
def unboundedChain? (definition : Definition) : Option (List String) :=
  Cycle.find? definition.states.keys definition.automaticTargets

/-- A violation, if the condition holds. -/
def reportIf (condition : Bool) (violation : Violation) : List Violation :=
  if condition then [violation] else []

theorem reportIf_eq_nil {condition : Bool} {violation : Violation} :
    reportIf condition violation = [] ↔ condition = false := by
  cases condition <;> simp [reportIf]

namespace State

def targetViolations (definition : Definition) (id : String) (state : State) : List Violation :=
  (state.routes.filter fun route => !definition.states.contains route.target).map
    fun route => .unknownTarget id route.target

def finalViolations (id : String) (state : State) : List Violation :=
  if state.isFinal then
    reportIf (state.on.values.any fun routes => !routes.isEmpty) (.finalWithTransitions id) ++
      reportIf (state.raise.isSome || state.call.isSome) (.finalWithEffects id)
  else []

def raiseViolations (id : String) (state : State) : List Violation :=
  match state.raise with
  | none => []
  | some raise =>
    let routes := state.candidates raise.kind
    (if routes.isEmpty then [.unhandledRaise id raise.kind]
      else reportIf (routes.all fun route => route.guard.isSome) (.raiseWithoutFallback id raise.kind)) ++
      reportIf state.call.isSome (.raiseAndCall id)

def callViolations (id : String) (state : State) : List Violation :=
  match state.call with
  | none => []
  | some call =>
    reportIf call.onDone.isEmpty (.missingDoneRoute id call.service) ++
      reportIf call.onError.isEmpty (.missingErrorRoute id call.service)

/-- The defects of the graph at one state. -/
def violations (definition : Definition) (id : String) (state : State) : List Violation :=
  targetViolations definition id state ++ finalViolations id state ++ raiseViolations id state ++
    callViolations id state

end State

/-- The defects of the graph. -/
def graphViolations (definition : Definition) : List Violation :=
  reportIf (!definition.states.contains definition.initial) (.missingInitial definition.initial) ++
    definition.states.entries.flatMap (fun (id, state) => state.violations definition id) ++
    (definition.unboundedChain?.map Violation.unboundedChain).toList

/-- The unbound names of a candidate: its guard, then its actions. -/
def Route.unresolved (names : Names) (id : String) (route : Route) : List Violation :=
  ((route.guard.toList.filter fun name => !names.guard name).map (.unresolvedName id .guard)) ++
    ((route.actions.filter fun name => !names.action name).map (.unresolvedName id .action))

/-- The unbound names of a state: those of its candidates, then its service. -/
def State.unresolved (names : Names) (id : String) (state : State) : List Violation :=
  state.routes.flatMap (Route.unresolved names id) ++
    ((state.call.toList.map Call.service).filter fun name => !names.service name).map (.unresolvedName id .service)

/-- Every name that is bound to nothing. -/
def nameViolations (definition : Definition) (names : Names) : List Violation :=
  definition.states.entries.flatMap fun (id, state) => state.unresolved names id

/-- Every defect of the definition under the given bindings. -/
def violations (definition : Definition) (names : Names) : List Violation :=
  definition.graphViolations ++ definition.nameViolations names

end Definition

end DialMenu
