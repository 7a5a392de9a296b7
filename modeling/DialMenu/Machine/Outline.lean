import DialMenu.Definition.Json
import DialMenu.Machine
import DialMenu.Text.Quoted

/-!
Machines for inspection: the guard and the actions of a candidate in a line of text, and the whole machine in JSON, every
candidate with the names of its guard and its actions.
-/

namespace DialMenu

variable {C σ : Type}

/-- A function by its kind and its name. -/
private def namedFunction (kind name : String) : String := kind ++ " \x7b name: " ++ Text.quoted name ++ " \x7d"

def Guard.describe (guard : Guard C) : String := namedFunction "Guard" guard.name

def Action.describe (action : Action C) : String := namedFunction "Action" action.name

/-- The guard, if there is one, and the list of the actions. -/
def Transition.describe (t : Transition C) : String :=
  let guard := match t.guard with
    | some guard => "Some(" ++ guard.describe ++ ")"
    | none => "None"
  guard ++ " [" ++ ", ".intercalate (t.actions.map Action.describe) ++ "]"

def Transition.outline (t : Transition C) : Json := .record [
  ("target", .str t.target),
  ("guard", Json.ofOption Json.str (t.guard.map Guard.name)),
  ("actions", Json.ofList Json.str (t.actions.map Action.name))]

def Invocation.outline (call : Invocation C σ) : Json := .record [
  ("service", .str call.name),
  ("on_done", Json.ofList Transition.outline call.onDone),
  ("on_error", Json.ofList Transition.outline call.onError)]

namespace Machine

def State.outline (state : State C σ) : Json := .record [
  ("id", .str state.id),
  ("final", .bool state.isFinal),
  ("tags", Json.ofList (fun tag => .str tag.name) state.tags),
  ("error", .bool (state.tags.contains Tag.error)),
  ("raise", Json.ofOption EntryRaise.toJson state.raise),
  ("invoke", Json.ofOption Invocation.outline state.call),
  ("on", .record (EventKind.all.map fun kind => (kind.name, Json.ofList Transition.outline (state.on kind))))]

/-- The states of a machine by name. -/
def outline (machine : Machine C σ) : List (String × Json) := [
  ("id", .str machine.id),
  ("initial", .str machine.initial),
  ("states", Json.ofEntries (fun name => name) State.outline machine.states.entries)]

end Machine

end DialMenu
