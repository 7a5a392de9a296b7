import DialMenu.Definition.Basic

/-!
The defects of machine definitions and their wording.
-/

namespace DialMenu

/-- What a name in a definition stands for. -/
inductive NameKind where
  | guard
  | action
  | service
deriving DecidableEq, Inhabited

def NameKind.word : NameKind → String
  | guard => "guard"
  | action => "action"
  | service => "service"

inductive Violation where
  | missingInitial (initial : String)
  | unknownTarget (state target : String)
  | finalWithTransitions (state : String)
  | finalWithEffects (state : String)
  | unhandledRaise (state : String) (kind : EventKind)
  | raiseWithoutFallback (state : String) (kind : EventKind)
  | raiseAndCall (state : String)
  | missingDoneRoute (state service : String)
  | missingErrorRoute (state service : String)
  | unboundedChain (cycle : List String)
  | unresolvedName (state : String) (kind : NameKind) (name : String)
deriving DecidableEq, Inhabited

private def quoted (s : String) : String := "'" ++ s ++ "'"

def Violation.message : Violation → String
  | missingInitial initial => "Initial state " ++ quoted initial ++ " is not defined"
  | unknownTarget state target => "State " ++ quoted state ++ " targets unknown state " ++ quoted target
  | finalWithTransitions state => "Final state " ++ quoted state ++ " declares outgoing transitions"
  | finalWithEffects state => "Final state " ++ quoted state ++ " declares an entry raise or an invocation"
  | unhandledRaise state kind =>
    "State " ++ quoted state ++ " raises " ++ kind.name ++ " but has no " ++ kind.name ++ " transition"
  | raiseWithoutFallback state kind =>
    "State " ++ quoted state ++ " raises " ++ kind.name ++ " but every " ++ kind.name ++ " transition is guarded"
  | raiseAndCall state => "State " ++ quoted state ++ " declares both an entry raise and an invocation"
  | missingDoneRoute state service =>
    "Invocation of " ++ quoted service ++ " in state " ++ quoted state ++ " has no onDone route"
  | missingErrorRoute state service =>
    "Invocation of " ++ quoted service ++ " in state " ++ quoted state ++ " has no onError route"
  | unboundedChain cycle =>
    "Entry raises and invocations form an unbounded cycle: " ++ " -> ".intercalate cycle
  | unresolvedName state kind name =>
    "State " ++ quoted state ++ " uses " ++ kind.word ++ " " ++ quoted name ++ " which has no binding"

/-- Why a definition or a machine cannot be built. -/
inductive BuildError where
  | missingInitialState (machine : String)
  | duplicateState (machine state : String)
  | missingTarget
  | invalidDefinition (machine : String) (violations : List Violation)
deriving DecidableEq, Inhabited

namespace BuildError

def violations : BuildError → List Violation
  | invalidDefinition _ violations => violations
  | _ => []

def message : BuildError → String
  | missingInitialState machine =>
    "Initial state not specified for machine " ++ quoted machine ++ ". Call .initial(state) before .build()"
  | duplicateState machine state =>
    "State " ++ quoted state ++ " is declared more than once in machine " ++ quoted machine
  | missingTarget => "Transition target not specified. Call .to(state)"
  | invalidDefinition machine violations =>
    "Machine " ++ quoted machine ++ " is invalid: " ++ "; ".intercalate (violations.map Violation.message)

end BuildError

end DialMenu
