import DialMenu.Definition.Json
import DialMenu.Definition.Violation

/-!
Findings about definitions in JSON: the facts of a state, and each defect with its kind and its wording.
-/

namespace DialMenu

namespace Violation

def kind : Violation → String
  | missingInitial _ => "MissingInitial"
  | unknownTarget _ _ => "UnknownTarget"
  | finalWithTransitions _ => "FinalWithTransitions"
  | finalWithEffects _ => "FinalWithEffects"
  | unhandledRaise _ _ => "UnhandledRaise"
  | raiseWithoutFallback _ _ => "RaiseWithoutFallback"
  | raiseAndCall _ => "RaiseAndInvoke"
  | missingDoneRoute _ _ => "MissingDoneRoute"
  | missingErrorRoute _ _ => "MissingErrorRoute"
  | unboundedChain _ => "UnboundedChain"
  | unresolvedName _ _ _ => "UnresolvedName"

def toJson (violation : Violation) : Json := .record [
  ("kind", .str violation.kind),
  ("message", .str violation.message)]

end Violation

namespace BuildError

def kind : BuildError → String
  | missingInitialState _ => "MissingInitialState"
  | duplicateState _ _ => "DuplicateState"
  | missingTarget => "MissingTarget"
  | invalidDefinition _ _ => "InvalidDefinition"

def toJson (err : BuildError) : Json := .record [
  ("error", .str err.kind),
  ("message", .str err.message),
  ("violations", Json.ofList Violation.toJson err.violations)]

end BuildError

/-- What can be asked of a state: its kind and tags, the number of candidates for each kind of event, and the
targets of all candidates. -/
def Definition.State.facts (state : State) : Json := .record [
  ("final", .bool state.isFinal),
  ("error", .bool (state.tags.contains Tag.error)),
  ("encrypt", .bool (state.tags.contains Tag.encryptInput)),
  ("counts", Json.ofList (fun kind => .integer (state.candidates kind).length) EventKind.all),
  ("targets", Json.ofList (fun route => .str route.target) state.routes)]

end DialMenu
