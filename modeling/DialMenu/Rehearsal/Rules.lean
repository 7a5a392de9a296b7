import DialMenu.Bindings
import DialMenu.Rehearsal.Notebook

/-!
Guards and actions on notebooks that are spelled out in their names: a word, or a word and its argument
behind the first equals sign.
-/

namespace DialMenu.Rehearsal

/-- The word before the first equals sign, and the argument behind it. -/
def splitName (name : String) : String × Option String :=
  let cs := name.toList
  match cs.dropWhile (· ≠ '=') with
  | _ :: argument => (String.ofList (cs.takeWhile (· ≠ '=')), some (String.ofList argument))
  | [] => (name, none)

/-- The guard with this name. -/
def guard? (name : String) : Option (Notebook → Event → Bool) :=
  match splitName name with
  | ("always", none) => some fun _ _ => true
  | ("never", none) => some fun _ _ => false
  | ("digits", none) => some fun _ e => e.input ≠ "" && e.input.toList.all Char.isDigit
  | ("empty", none) => some fun _ e => e.input = ""
  | ("blocked", none) => some fun n e => n.blocked || e.failure.any Failure.blocked
  | ("success", none) => some fun _ e => e.succeeded
  | ("input", some x) => some fun _ e => e.input = x
  | ("code", some x) => some fun _ e => e.failure.any fun f => f.code = x
  | ("feedback", some x) => some fun n _ => n.feedback = some x
  | ("eventFeedback", some x) => some fun _ e => e.feedback = some x
  | ("kind", some x) => some fun _ e => e.kind.name = x
  | ("has", some x) => some fun n _ => n.data.contains x
  | _ => none

/-- The outcome that an event carries, in a word. -/
def outcomeNote (e : Event) : String :=
  match e.outcome with
  | none => "-"
  | some (.success value) => if value.IsSuccess then "success" else "output"
  | some (.failure f) => f.code ++ ":" ++ (if f.blocked then "true" else "false") ++ ":" ++ f.detail

def eventNote (e : Event) : String :=
  e.kind.name ++ "|" ++ e.input ++ "|" ++ e.feedback.getD "-" ++ "|" ++ outcomeNote e

/-- The action with this name. -/
def action? (name : String) : Option (Notebook → Event → Notebook) :=
  match splitName name with
  | ("note", some x) => some fun n _ => { n with notes := n.notes ++ [x] }
  | ("set", some x) => some fun n e => { n with data := n.data.insert x (.text e.input) }
  | ("output", some x) => some fun n e =>
    match e.output with
    | some value => { n with data := n.data.insert x value }
    | none => n
  | ("unset", some x) => some fun n _ => { n with data := n.data.erase x }
  | ("feedback", some x) => some fun n _ => { n with feedback := some x }
  | ("block", none) => some fun n _ => { n with blocked := true }
  | ("noteFeedback", none) => some fun n _ => { n with notes := n.notes ++ [n.feedback.getD "-"] }
  | ("noteEvent", none) => some fun n e => { n with notes := n.notes ++ [eventNote e] }
  | _ => none

variable {σ : Type}

/-- All guards and actions on notebooks, with the given services. -/
def bindings (service : String → Option (Service Notebook σ)) : Bindings Notebook σ where
  guard name := (guard? name).map fun check => { name, check }
  action name := (action? name).map fun run => { name, run }
  service := service

end DialMenu.Rehearsal
