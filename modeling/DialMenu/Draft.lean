import DialMenu.Definition.Check

/-!
Definitions put together call by call. `Draft.build` finds what is missing or doubled and then checks the graph.
-/

namespace DialMenu

structure RouteDraft where
  target : Option String := none
  guard : Option String := none
  actions : List String := []
deriving DecidableEq, Inhabited

structure CallDraft where
  service : String
  onDone : List RouteDraft := []
  onError : List RouteDraft := []
deriving DecidableEq, Inhabited

structure StateDraft where
  id : String
  kind : StateKind := .normal
  description : Option String := none
  tags : List Tag := []
  raise : Option EntryRaise := none
  call : Option CallDraft := none
  /-- The candidates of all kinds, in the order in which they were given. -/
  on : List (EventKind × RouteDraft) := []
deriving DecidableEq, Inhabited

structure Draft where
  id : String
  initial : Option String := none
  states : List StateDraft := []
deriving DecidableEq, Inhabited

/-- A candidate that leads to `state`. -/
def goTo (state : String) : RouteDraft := { target := some state }

namespace RouteDraft

def towards (route : RouteDraft) (state : String) : RouteDraft := { route with target := some state }

def when (route : RouteDraft) (guard : String) : RouteDraft := { route with guard := some guard }

def act (route : RouteDraft) (action : String) : RouteDraft := { route with actions := route.actions ++ [action] }

def build (route : RouteDraft) : Except BuildError Route :=
  match route.target with
  | some target => .ok { target, guard := route.guard, actions := route.actions }
  | none => .error .missingTarget

end RouteDraft

namespace CallDraft

def done (call : CallDraft) (route : RouteDraft) : CallDraft := { call with onDone := call.onDone ++ [route] }

def error (call : CallDraft) (route : RouteDraft) : CallDraft := { call with onError := call.onError ++ [route] }

def build (call : CallDraft) : Except BuildError Call := do
  let onDone ← call.onDone.mapM RouteDraft.build
  let onError ← call.onError.mapM RouteDraft.build
  pure { service := call.service, onDone, onError }

end CallDraft

namespace StateDraft

def final (id : String) : StateDraft := { id, kind := .final }

def describe (state : StateDraft) (description : String) : StateDraft :=
  { state with description := some description }

/-- A tag that is there already is not added again. -/
def tag (state : StateDraft) (tag : Tag) : StateDraft :=
  if tag ∈ state.tags then state else { state with tags := state.tags ++ [tag] }

def route (state : StateDraft) (kind : EventKind) (route : RouteDraft) : StateDraft :=
  { state with on := state.on ++ [(kind, route)] }

def transit (state : StateDraft) (route : RouteDraft) : StateDraft := state.route .transit route

def back (state : StateDraft) (route : RouteDraft) : StateDraft := state.route .back route

def raises (state : StateDraft) (kind : EventKind) (feedback : Option String) : StateDraft :=
  { state with raise := some { kind, feedback } }

def raisesRetry (state : StateDraft) (feedback : String) : StateDraft := state.raises .retry (some feedback)

def calls (state : StateDraft) (call : CallDraft) : StateDraft := { state with call := some call }

/-- The table with one more candidate at the end of those of its kind. -/
def addRoute (on : Table EventKind (List Route)) (kind : EventKind) (route : Route) : Table EventKind (List Route) :=
  on.insert kind ((on.get? kind).getD [] ++ [route])

def build (state : StateDraft) : Except BuildError Definition.State := do
  let call ← match state.call with
    | some call => some <$> call.build
    | none => .ok none
  let on ← state.on.foldlM (fun on (kind, route) => return addRoute on kind (← route.build)) Table.empty
  pure { kind := state.kind, description := state.description, tags := state.tags, raise := state.raise, call, on }

end StateDraft

namespace Draft

def start (draft : Draft) (state : String) : Draft := { draft with initial := some state }

def state (draft : Draft) (state : StateDraft) : Draft := { draft with states := draft.states ++ [state] }

def extend (draft : Draft) (states : List StateDraft) : Draft := { draft with states := draft.states ++ states }

/-- Adds the states one after another; none may be declared before. -/
def buildStates (machine : String) (states : Table String Definition.State) :
    List StateDraft → Except BuildError (Table String Definition.State)
  | [] => .ok states
  | draft :: drafts => do
    let state ← draft.build
    if states.contains draft.id then .error (.duplicateState machine draft.id)
    else buildStates machine (states.insert draft.id state) drafts

def build (draft : Draft) : Except BuildError Definition := do
  let initial ← match draft.initial with
    | some initial => .ok initial
    | none => .error (.missingInitialState draft.id)
  let states ← buildStates draft.id .empty draft.states
  let definition : Definition := { id := draft.id, initial, states }
  match definition.graphViolations with
  | [] => .ok definition
  | violations => .error (.invalidDefinition draft.id violations)

end Draft

end DialMenu
