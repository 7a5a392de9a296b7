import DialMenu.Bindings
import DialMenu.Menus.Backends

/-!
What the menus have in common: the check of the PIN before a protected change, the guards for menu options
and outcomes, and the record of rejected calls.
-/

namespace DialMenu.Menus

def invalidPinCode : String := "INVALID_PIN"

/-- Rejects unless `pin` is the account's. A blocked account is rejected before its PIN is looked at, and so
is the wrong PIN that blocks it. -/
def validatePin (s : Subscriber) (pin : String) (b : Backends) : Except ServiceError Unit × Backends :=
  if s.isBlocked then (.error .accountBlocked, b)
  else
    let (check, b) := b.verifyPin s.phone pin
    let result := match check with
      | .ok .valid => .ok ()
      | .ok (.invalid remaining) =>
        .error (.machine invalidPinCode
          ("Invalid PIN. " ++ String.ofList (Numeral.ofNat remaining) ++ " attempts remaining."))
      | .ok .blocked => .error .accountBlocked
      | .error err => .error (.unexpected err.message)
    (result, b)

/-- A service that works only with the right PIN as input. -/
def withPin (work : Subscriber → Backends → Except ServiceError Value × Backends) : Service Subscriber Backends :=
  fun s event b =>
    match validatePin s event.input b with
    | (.error err, b) => { result := .error err, env := b }
    | (.ok (), b) =>
      let (result, b) := work s b
      { result, env := b }

/-- The names of the option guards and the inputs that they accept. -/
def options : List (String × String) := [
  ("isOption1", "1"), ("isOption2", "2"), ("isOption3", "3"), ("isOption4", "4"), ("isOption5", "5"),
  ("isOption6", "6"), ("isOption9", "9"), ("isOption00", "00"), ("isOption11", "11"), ("isOption22", "22")]

def isOption (choice : String) (_ : Subscriber) (event : Event) : Bool := event.input = choice

/-- The call was rejected with this code. -/
def hasCode (code : String) (_ : Subscriber) (event : Event) : Bool := event.failure.any fun f => f.code = code

def isSuccess (_ : Subscriber) (event : Event) : Bool := event.succeeded

/-- The account is blocked on record, or the rejection says so. -/
def isBlocked (s : Subscriber) (event : Event) : Bool := s.isBlocked || event.failure.any Failure.blocked

/-- Keeps the detail of a rejection. -/
def updateErrorMessages (s : Subscriber) (event : Event) : Subscriber :=
  match event.failure with
  | some failure => { s with errors := s.errors ++ [failure.detail] }
  | none => s

/-- The guards for menu options. -/
def optionBindings : Bindings Subscriber Backends :=
  options.foldl (fun (b : Bindings Subscriber Backends) (name, choice) => b.withGuard name (isOption choice))
    Bindings.empty

/-- The guards and actions of every menu. -/
def sharedBindings : Bindings Subscriber Backends :=
  optionBindings
    |>.withGuard "isSuccess" isSuccess
    |>.withGuard "isBlocked" isBlocked
    |>.withAction "updateErrorMessages" updateErrorMessages

end DialMenu.Menus
