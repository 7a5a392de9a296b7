import DialMenu.Definition.Check
import DialMenu.Machine

/-!
Functions for the names of a definition, and machines made from the two. A name without a function is found
when the machine is made, never later.
-/

namespace DialMenu

structure Bindings (C σ : Type) where
  guard : String → Option (Guard C)
  action : String → Option (Action C)
  service : String → Option (Service C σ)

namespace Bindings

variable {C σ : Type}

def empty : Bindings C σ := { guard := fun _ => none, action := fun _ => none, service := fun _ => none }

def withGuard (b : Bindings C σ) (name : String) (check : C → Event → Bool) : Bindings C σ :=
  { b with guard := fun n => if n = name then some { name, check } else b.guard n }

def withAction (b : Bindings C σ) (name : String) (run : C → Event → C) : Bindings C σ :=
  { b with action := fun n => if n = name then some { name, run } else b.action n }

def withService (b : Bindings C σ) (name : String) (service : Service C σ) : Bindings C σ :=
  { b with service := fun n => if n = name then some service else b.service n }

/-- Which names have a function. -/
def names (b : Bindings C σ) : Names where
  guard name := (b.guard name).isSome
  action name := (b.action name).isSome
  service name := (b.service name).isSome

/-- The function of a name; without a function the definition is invalid. -/
def find {α : Type} (machine : String) (kind : NameKind) (lookup : String → Option α) (name : String) :
    Except BuildError α :=
  match lookup name with
  | some found => .ok found
  | none => .error (.invalidDefinition machine [.unresolvedName "*" kind name])

def compileRoute (b : Bindings C σ) (machine : String) (route : Route) : Except BuildError (Transition C) := do
  let guard ← match route.guard with
    | some name => some <$> find machine .guard b.guard name
    | none => .ok none
  let actions ← route.actions.mapM (find machine .action b.action)
  pure { target := route.target, guard, actions }

def compileCall (b : Bindings C σ) (machine : String) (call : Call) : Except BuildError (Invocation C σ) := do
  let service ← find machine .service b.service call.service
  let onDone ← call.onDone.mapM (b.compileRoute machine)
  let onError ← call.onError.mapM (b.compileRoute machine)
  pure { name := call.service, service, onDone, onError }

def compileState (b : Bindings C σ) (machine id : String) (state : Definition.State) :
    Except BuildError (Machine.State C σ) := do
  let on ← state.on.traverse fun _ routes => routes.mapM (b.compileRoute machine)
  let call ← match state.call with
    | some call => some <$> b.compileCall machine call
    | none => .ok none
  pure { id, kind := state.kind, tags := state.tags, raise := state.raise, call
         on := fun kind => (on.get? kind).getD [] }

/-- The machine of a definition that need not be valid. -/
def compile (b : Bindings C σ) (definition : Definition) : Except BuildError (Machine C σ) := do
  let states ← definition.states.traverse (b.compileState definition.id)
  pure { id := definition.id, initial := definition.initial, states }

/-- The machine of a definition, if the definition has no defect under these bindings. -/
def resolve (b : Bindings C σ) (definition : Definition) : Except BuildError (Machine C σ) :=
  match definition.violations b.names with
  | [] => b.compile definition
  | violations => .error (.invalidDefinition definition.id violations)

end Bindings

end DialMenu
