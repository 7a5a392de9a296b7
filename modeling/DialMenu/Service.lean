import DialMenu.Event
import DialMenu.Time.Duration

/-!
Services that a state may call on entry. A service works on an environment that it shares with every other
call; it takes some time, and answers with a value or a rejection.
-/

namespace DialMenu

inductive ServiceError where
  | accountBlocked
  /-- A failure of one feature, with a code that guards can test. -/
  | machine (code message : String)
  | unexpected (message : String)
  | timedOut (limit : Duration)
deriving DecidableEq, Inhabited

namespace ServiceError

def kind : ServiceError → String
  | accountBlocked => "AccountBlocked"
  | machine _ _ => "Machine"
  | unexpected _ => "Unexpected"
  | timedOut _ => "TimedOut"

def message : ServiceError → String
  | accountBlocked => "Account is blocked"
  | machine code message => code ++ ": " ++ message
  | unexpected message => "Unexpected service failure: " ++ message
  | timedOut limit => "Service timed out after " ++ limit.text

/-- The failure that guards see, by the code that the error itself carries. -/
def classify (err : ServiceError) : Failure :=
  match err with
  | accountBlocked => { code := "ACCOUNT_BLOCKED", blocked := true, detail := err.message }
  | machine code _ => { code, blocked := false, detail := err.message }
  | unexpected _ => { code := "UNEXPECTED", blocked := false, detail := err.message }
  | timedOut _ => { code := "TIMEOUT", blocked := false, detail := err.message }

end ServiceError

/-- How a call ended, how long it took, and the environment it left. -/
structure Answer (σ : Type) where
  result : Except ServiceError Value
  env : σ
  elapsed : Duration := .zero

abbrev Service (C σ : Type) := C → Event → σ → Answer σ

/-- The service, rejected if it takes longer than `limit`. What it did to the environment stays done. -/
def Service.withTimeout {C σ : Type} (limit : Duration) (service : Service C σ) : Service C σ :=
  fun context event env =>
    let answer := service context event env
    if limit.total < answer.elapsed.total then
      { result := .error (.timedOut limit), env := answer.env, elapsed := limit }
    else answer

end DialMenu
