import DialMenu.Value

/-!
What guards and actions are given: the data that a conversation carries, and the event that the machine is stepped
with. An event is a keystroke, the synthetic event of an entry raise, or either of them together with the outcome of a
service call.
-/

namespace DialMenu

/-- What the machines need of the data that a conversation carries. -/
class Context (C : Type) where
  /-- The tag of the message that the last entry raise asks for. -/
  feedback : C → Option String
  setFeedback : Option String → C → C
  /-- The text for a name in a template, if the context has one. -/
  placeholder : C → String → Option String := fun _ _ => none

inductive EventKind where
  /-- A keystroke that moves the conversation forward. -/
  | transit
  /-- A keystroke that asks for the previous menu. -/
  | back
  /-- Raised by a state that asks again after an invalid entry. -/
  | retry
deriving DecidableEq, Ord, Inhabited

namespace EventKind

def all : List EventKind := [transit, back, retry]

def name : EventKind → String
  | transit => "TRANSIT"
  | back => "BACK"
  | retry => "RETRY"

def ofName? (s : String) : Option EventKind := all.find? fun kind => kind.name = s

theorem ofName?_name (kind : EventKind) : ofName? kind.name = some kind := by
  cases kind <;> decide

instance : Std.LawfulEqOrd EventKind where
  compare_self {a} := by cases a <;> rfl
  eq_of_compare {a b} := by cases a <;> cases b <;> decide

instance : Std.TransOrd EventKind where
  eq_swap {a b} := by cases a <;> cases b <;> rfl
  isLE_trans {a b c} := by cases a <;> cases b <;> cases c <;> decide

end EventKind

/-- A rejected service call after classification, in a shape that guards can test. -/
structure Failure where
  code : String
  /-- The account is blocked. -/
  blocked : Bool
  detail : String
deriving DecidableEq, Inhabited

def Failure.toJson (f : Failure) : Json := .record [
  ("code", .str f.code), ("blocked", .bool f.blocked), ("detail", .str f.detail)]

/-- How a service call ended. -/
inductive Outcome where
  | success (output : Value)
  | failure (failure : Failure)
deriving DecidableEq, Inhabited

structure Event where
  kind : EventKind
  input : String
  feedback : Option String := none
  outcome : Option Outcome := none
deriving DecidableEq, Inhabited

namespace Event

/-- The event with the outcome of a call in addition. -/
def withOutcome (event : Event) (outcome : Outcome) : Event := { event with outcome := some outcome }

/-- What a successful call answered. -/
def output (event : Event) : Option Value :=
  match event.outcome with
  | some (.success value) => some value
  | _ => none

/-- Why a call was rejected. -/
def failure (event : Event) : Option Failure :=
  match event.outcome with
  | some (.failure failure) => some failure
  | _ => none

/-- The event carries the conventional output of a successful call. -/
def succeeded (event : Event) : Bool :=
  match event.output with
  | some value => decide value.IsSuccess
  | none => false

end Event

end DialMenu
