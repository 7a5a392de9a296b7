import DialMenu.Definition.Json
import DialMenu.Encoding

/-!
The hops of one turn, in order: the candidate that the event selected, then every entry raise and every
outcome of a service call.
-/

namespace DialMenu

/-- What caused a hop. -/
inductive Trigger where
  /-- The event of the turn. -/
  | event (kind : EventKind)
  /-- The entry raise of the state that is left. -/
  | raise (kind : EventKind)
  /-- The state's service call was answered. -/
  | done
  /-- The state's service call was rejected. -/
  | error
deriving DecidableEq, Inhabited

structure Hop where
  origin : String
  target : String
  trigger : Trigger
  timestamp : Instant
deriving DecidableEq, Inhabited

structure Trace where
  hops : List Hop := []
deriving DecidableEq, Inhabited

namespace Trigger

def isRaise : Trigger → Bool
  | raise _ => true
  | _ => false

def isOutcome : Trigger → Bool
  | done | error => true
  | _ => false

/-- The trigger in a word or two. -/
def text : Trigger → String
  | event kind => "Event:" ++ kind.name
  | raise kind => "Raise:" ++ kind.name
  | done => "Done"
  | error => "Error"

def toJson : Trigger → Json
  | event kind => .record [("Event", kind.toJson)]
  | raise kind => .record [("Raise", kind.toJson)]
  | done => .str "Done"
  | error => .str "Error"

def ofJson : Json.Reader Trigger
  | d + 1, .object [(.text "Event", kind)] => (EventKind.ofJson d kind).map event
  | d + 1, .object [(.text "Raise", kind)] => (EventKind.ofJson d kind).map raise
  | d, j => Json.named (fun name => if name = "Done" then some done else if name = "Error" then some error else none) d j

end Trigger

namespace Hop

def toJson (hop : Hop) : Json := .record [
  ("from", .str hop.origin),
  ("to", .str hop.target),
  ("trigger", hop.trigger.toJson),
  ("timestamp", hop.timestamp.toJson)]

def ofJson : Json.Reader Hop
  | 0, _ => none
  | d + 1, j => do
    let field ← Json.fields ["from", "to", "trigger", "timestamp"] j
    let origin ← (field "from").required (Json.text d)
    let target ← (field "to").required (Json.text d)
    let trigger ← (field "trigger").required (Trigger.ofJson d)
    let timestamp ← (field "timestamp").required (Instant.ofJson d)
    pure { origin, target, trigger, timestamp }

end Hop

namespace Trace

/-- The trace with one more hop at its end. -/
def record (trace : Trace) (hop : Hop) : Trace := { hops := trace.hops ++ [hop] }

/-- The states that were passed: where the first hop began, then where each hop led. -/
def path (trace : Trace) : List String :=
  (trace.hops.head?.map Hop.origin).toList ++ trace.hops.map Hop.target

def isEmpty (trace : Trace) : Bool := trace.hops.isEmpty

/-- How many entry raises led to a hop. -/
def raises (trace : Trace) : Nat := trace.hops.countP fun hop => hop.trigger.isRaise

/-- How many service calls led to a hop. -/
def calls (trace : Trace) : Nat := trace.hops.countP fun hop => hop.trigger.isOutcome

/-- What a trace says about its turn, without the time of each hop. -/
def summary (trace : Trace) : Json := .record [
  ("path", Json.ofList Json.str trace.path),
  ("hops", Json.ofList (fun hop => .array [.str hop.origin, .str hop.target, .str hop.trigger.text]) trace.hops),
  ("raises", .integer trace.raises),
  ("invocations", .integer trace.calls),
  ("empty", .bool trace.isEmpty)]

def toJson (trace : Trace) : Json := .record [("hops", Json.ofList Hop.toJson trace.hops)]

def ofJson : Json.Reader Trace
  | 0, _ => none
  | d + 1, j => do
    let field ← Json.fields ["hops"] j
    let hops ← (field "hops").required (Json.list Hop.ofJson d)
    pure { hops }

end Trace

end DialMenu
