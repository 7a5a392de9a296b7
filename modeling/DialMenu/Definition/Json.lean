import DialMenu.Definition.Basic

/-!
The JSON form of machine definitions. Writing names every field; reading supplies those that have a value
of their own.
-/

namespace DialMenu

namespace EventKind

def toJson (kind : EventKind) : Json := .str kind.name

def ofJson : Json.Reader EventKind := Json.named ofName?

end EventKind

namespace StateKind

def name : StateKind → String
  | normal => "normal"
  | final => "final"

def ofName? (s : String) : Option StateKind := [normal, final].find? fun kind => kind.name = s

end StateKind

namespace Tag

def name : Tag → String
  | error => "error"
  | resolved => "resolved"
  | invoked => "invoked"
  | encryptInput => "encryptInput"

def ofName? (s : String) : Option Tag := [error, resolved, invoked, encryptInput].find? fun tag => tag.name = s

end Tag

namespace Route

def toJson (route : Route) : Json := .record [
  ("target", .str route.target),
  ("guard", Json.ofOption .str route.guard),
  ("actions", Json.ofList .str route.actions)]

def ofJson : Json.Reader Route
  | 0, _ => none
  | d + 1, j => do
    let field ← Json.fields ["target", "guard", "actions"] j
    let target ← (field "target").required (Json.text d)
    let guard ← (field "guard").orDefault none (Json.nullable Json.text d)
    let actions ← (field "actions").orDefault [] (Json.list Json.text d)
    pure { target, guard, actions }

end Route

namespace Call

def toJson (call : Call) : Json := .record [
  ("service", .str call.service),
  ("on_done", Json.ofList Route.toJson call.onDone),
  ("on_error", Json.ofList Route.toJson call.onError)]

def ofJson : Json.Reader Call
  | 0, _ => none
  | d + 1, j => do
    let field ← Json.fields ["service", "on_done", "on_error"] j
    let service ← (field "service").required (Json.text d)
    let onDone ← (field "on_done").orDefault [] (Json.list Route.ofJson d)
    let onError ← (field "on_error").orDefault [] (Json.list Route.ofJson d)
    pure { service, onDone, onError }

end Call

namespace EntryRaise

def toJson (raise : EntryRaise) : Json := .record [
  ("kind", raise.kind.toJson),
  ("feedback", Json.ofOption .str raise.feedback)]

def ofJson : Json.Reader EntryRaise
  | 0, _ => none
  | d + 1, j => do
    let field ← Json.fields ["kind", "feedback"] j
    let kind ← (field "kind").required (EventKind.ofJson d)
    let feedback ← (field "feedback").orDefault none (Json.nullable Json.text d)
    pure { kind, feedback }

end EntryRaise

namespace Definition

namespace State

def toJson (state : State) : Json := .record [
  ("kind", .str state.kind.name),
  ("description", Json.ofOption .str state.description),
  ("tags", Json.ofList (fun tag => .str tag.name) state.tags),
  ("raise", Json.ofOption EntryRaise.toJson state.raise),
  ("invoke", Json.ofOption Call.toJson state.call),
  ("on", Json.ofEntries EventKind.name (Json.ofList Route.toJson) state.on.entries)]

def ofJson : Json.Reader State
  | 0, _ => none
  | d + 1, j => do
    let field ← Json.fields ["kind", "description", "tags", "raise", "invoke", "on"] j
    let kind ← (field "kind").orDefault .normal (Json.named StateKind.ofName? d)
    let description ← (field "description").orDefault none (Json.nullable Json.text d)
    let tags ← (field "tags").orDefault [] (Json.list (Json.named Tag.ofName?) d)
    let raise ← (field "raise").orDefault none (Json.nullable EntryRaise.ofJson d)
    let call ← (field "invoke").orDefault none (Json.nullable Call.ofJson d)
    let on ← (field "on").orDefault .empty (Json.table EventKind.ofName? (Json.list Route.ofJson) d)
    pure { kind, description, tags, raise, call, on }

end State

def toJson (definition : Definition) : Json := .record [
  ("id", .str definition.id),
  ("initial", .str definition.initial),
  ("states", Json.ofEntries (fun name => name) State.toJson definition.states.entries)]

def ofJson : Json.Reader Definition
  | 0, _ => none
  | d + 1, j => do
    let field ← Json.fields ["id", "initial", "states"] j
    let id ← (field "id").required (Json.text d)
    let initial ← (field "initial").required (Json.text d)
    let states ← (field "states").required (Json.table some State.ofJson d)
    pure { id, initial, states }

/-- Reads a definition from its text. -/
def read (s : String) : Option Definition := Json.Reader.ofText ofJson s

def write (definition : Definition) : String := definition.toJson.write

end Definition

end DialMenu
