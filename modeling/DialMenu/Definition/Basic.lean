import DialMenu.Event

/-!
Declarations of machines: a map of states, each with its candidate routes for every kind of event, and at
most one effect on entry. Guards, actions and services are referred to by name.
-/

namespace DialMenu

/-- A candidate: where it leads, the guard that has to hold, the actions in the order in which they run. -/
structure Route where
  target : String
  guard : Option String := none
  actions : List String := []
deriving DecidableEq, Inhabited

/-- A service call on entry, and the candidates for its two outcomes. -/
structure Call where
  service : String
  onDone : List Route := []
  onError : List Route := []
deriving DecidableEq, Inhabited

/-- An event that a state raises on entry. -/
structure EntryRaise where
  kind : EventKind
  feedback : Option String := none
deriving DecidableEq, Inhabited

inductive StateKind where
  | normal
  /-- Ends the conversation. -/
  | final
deriving DecidableEq, Inhabited

inductive Tag where
  | error
  | resolved
  | invoked
  | encryptInput
deriving DecidableEq, Inhabited

structure Definition.State where
  kind : StateKind := .normal
  description : Option String := none
  tags : List Tag := []
  raise : Option EntryRaise := none
  call : Option Call := none
  /-- For each kind of event the candidates in the order in which they are tried. -/
  on : Table EventKind (List Route) := .empty
deriving DecidableEq, Inhabited

structure Definition where
  id : String
  initial : String
  states : Table String Definition.State
deriving DecidableEq, Inhabited

namespace Definition

def state? (definition : Definition) (id : String) : Option State := definition.states.get? id

namespace State

def isFinal (state : State) : Bool := state.kind = .final

def candidates (state : State) (kind : EventKind) : List Route := (state.on.get? kind).getD []

/-- The candidates for the outcomes of the call. -/
def callRoutes (state : State) : List Route :=
  match state.call with
  | some call => call.onDone ++ call.onError
  | none => []

/-- Every candidate: those for events by kind, then those for the outcomes of the call. -/
def routes (state : State) : List Route := state.on.values.flatten ++ state.callRoutes

end State

end Definition

end DialMenu
