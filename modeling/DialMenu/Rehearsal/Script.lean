import DialMenu.Rehearsal.Notebook
import DialMenu.Service

/-!
Services that answer from a script and record every call.
-/

namespace DialMenu.Rehearsal

/-- One answer of a script, and how long it takes. -/
structure Line where
  result : Except ServiceError Value
  elapsed : Duration := .zero

/-- What a scripted service was called with. -/
structure CallRecord where
  service : String
  event : Event
  notes : List String
  feedback : Option String

/-- The calls so far, the latest first, and how often each service was called. -/
structure Stage where
  calls : List CallRecord := []
  counts : Table String Nat := .empty
deriving Inhabited

/-- The line for call number `n`: after the last line the last one again. -/
def lineAt (script : List Line) (n : Nat) : Line :=
  match script[n]? with
  | some line => line
  | none => script.getLast?.getD { result := .error (.unexpected "no script") }

/-- The service that follows a script. -/
def scripted (name : String) (script : List Line) : Service Notebook Stage := fun n e stage =>
  let count := (stage.counts.get? name).getD 0
  let line := lineAt script count
  { result := line.result
    elapsed := line.elapsed
    env := {
      calls := { service := name, event := e, notes := n.notes, feedback := n.feedback } :: stage.calls
      counts := stage.counts.insert name (count + 1) } }

end DialMenu.Rehearsal
