import DialMenu.Definition.Basic
import DialMenu.Service

/-!
Machines ready to run: definitions whose guards, actions and services are functions.
-/

namespace DialMenu

structure Guard (C : Type) where
  name : String
  check : C → Event → Bool

structure Action (C : Type) where
  name : String
  run : C → Event → C

structure Transition (C : Type) where
  target : String
  guard : Option (Guard C) := none
  actions : List (Action C) := []

/-- A service call on entry, and the candidates for its two outcomes. -/
structure Invocation (C σ : Type) where
  name : String
  service : Service C σ
  onDone : List (Transition C)
  onError : List (Transition C)

structure Machine.State (C σ : Type) where
  id : String
  kind : StateKind
  tags : List Tag
  raise : Option EntryRaise
  call : Option (Invocation C σ)
  on : EventKind → List (Transition C)

structure Machine (C σ : Type) where
  id : String
  initial : String
  states : Table String (Machine.State C σ)

variable {C σ : Type}

namespace Transition

/-- The guard holds. Without a guard a candidate is always eligible. -/
def eligible (t : Transition C) (context : C) (event : Event) : Bool :=
  t.guard.all fun guard => guard.check context event

/-- Runs the actions in their order. -/
def apply (t : Transition C) (context : C) (event : Event) : C :=
  t.actions.foldl (fun context action => action.run context event) context

/-- The first eligible candidate. -/
def select (candidates : List (Transition C)) (context : C) (event : Event) : Option (Transition C) :=
  candidates.find? fun t => t.eligible context event

end Transition

namespace Machine

def State.isFinal (state : State C σ) : Bool := state.kind = .final

def state? (machine : Machine C σ) (id : String) : Option (State C σ) := machine.states.get? id

def contains (machine : Machine C σ) (id : String) : Bool := (machine.state? id).isSome

/-- Conversations that reach this state are over. -/
def isTerminal (machine : Machine C σ) (id : String) : Bool := (machine.state? id).any State.isFinal

/-- The states that raise an event when they are entered. -/
def raising (machine : Machine C σ) : List String :=
  (machine.states.entries.filter fun (_, state) => !state.isFinal && state.raise.isSome).map (·.1)

/-- The states that call a service when they are entered. -/
def calling (machine : Machine C σ) : List String :=
  (machine.states.entries.filter fun (_, state) => !state.isFinal && state.raise.isNone && state.call.isSome).map (·.1)

end Machine

end DialMenu
