import DialMenu.Interpreter
import DialMenu.Menus.Rules
import DialMenu.Text.Basic

/-!
The guardian menu: enter the phone number of another account as a guardian, then confirm with the PIN.
-/

namespace DialMenu.Menus.Guardians

def additionErrorCode : String := "GUARDIAN_ADDITION_ERROR"

def definition : Definition where
  id := "guardians"
  initial := "guardiansMenu"
  states := .ofList [
    ("accountBlocked", { kind := .final, tags := [.error] }),
    ("addingGuardian", {
      description := some "Invoked service that records the new guardian."
      tags := [.invoked]
      call := some {
        service := "addGuardian"
        onDone := [{ target := "guardianAdditionSuccess", guard := some "isSuccess", actions := ["recordGuardian"] }]
        onError := [
          { target := "accountBlocked", guard := some "isBlocked", actions := ["updateErrorMessages"] },
          { target := "invalidPinAG", guard := some "isInvalidPin", actions := ["updateErrorMessages"] },
          { target := "guardianAdditionError", guard := some "isGuardianAdditionError"
            actions := ["updateErrorMessages"] }] } }),
    ("enteringAddGuardianPin", {
      tags := [.encryptInput]
      on := .ofList [
        (.transit, [{ target := "accountBlocked", guard := some "isBlocked" }, { target := "addingGuardian" }]),
        (.back, [{ target := "enteringNewGuardian" }])] }),
    ("enteringNewGuardian", {
      description := some "Expects the phone number of the new guardian."
      on := .ofList [
        (.transit, [
          { target := "enteringAddGuardianPin", guard := some "isValidGuardian", actions := ["saveGuardianEntry"] },
          { target := "invalidGuardianEntry" }]),
        (.back, [{ target := "guardiansMenu" }])] }),
    ("exit", { kind := .final }),
    ("guardianAdditionError", { kind := .final, tags := [.error] }),
    ("guardianAdditionSuccess", {
      tags := [.resolved]
      on := .ofList [
        (.transit, [{ target := "exit", guard := some "isOption9" }]),
        (.back, [{ target := "guardiansMenu" }])] }),
    ("guardiansMenu", {
      on := .ofList [
        (.transit, [
          { target := "enteringNewGuardian", guard := some "isOption1" },
          { target := "exit", guard := some "isOption9" }]),
        (.back, [{ target := "settingsMenu" }])] }),
    ("invalidGuardianEntry", {
      raise := some { kind := .retry, feedback := some "invalidGuardianEntry" }
      on := .ofList [(.retry, [{ target := "enteringNewGuardian" }])] }),
    ("invalidPinAG", {
      raise := some { kind := .retry, feedback := some "invalidPin" }
      on := .ofList [(.retry, [{ target := "enteringAddGuardianPin" }])] }),
    ("settingsMenu", { kind := .final })]

/-- At most one leading `+`, then digits in 9 to 15 bytes. -/
def isPhoneNumber (s : String) : Bool :=
  let digits := match s.toList with
    | '+' :: cs => cs
    | cs => cs
  let size := (String.ofList digits).utf8ByteSize
  9 ≤ size && size ≤ 15 && digits.all Char.isDigit

/-- A phone number that is neither the user's own nor already a guardian. -/
def isValidGuardian (s : Subscriber) (event : Event) : Bool :=
  let number := Text.trim event.input
  isPhoneNumber number && number ≠ s.phone && number ∉ s.user.guardians

def saveGuardianEntry (s : Subscriber) (event : Event) : Subscriber :=
  { s with pending.guardian := some (Text.trim event.input) }

/-- Makes the guardian that was entered one of the user's. -/
def recordGuardian (s : Subscriber) (_ : Event) : Subscriber :=
  match s.pending.guardian with
  | some guardian => { s with pending.guardian := none, user.guardians := s.user.guardians ++ [guardian] }
  | none => s

/-- Records the guardian that was entered. -/
def addGuardian (s : Subscriber) (b : Backends) : Except ServiceError Value × Backends :=
  match s.pending.guardian with
  | none => (.error (.machine additionErrorCode "No guardian entered."), b)
  | some guardian =>
    match b.storeGuardian guardian s.phone with
    | (.ok (), b) => (.ok .success, b)
    | (.error err, b) => (.error (.machine additionErrorCode err.message), b)

def bindings : Bindings Subscriber Backends :=
  sharedBindings
    |>.withGuard "isValidGuardian" isValidGuardian
    |>.withGuard "isInvalidPin" (hasCode invalidPinCode)
    |>.withGuard "isGuardianAdditionError" (hasCode additionErrorCode)
    |>.withAction "saveGuardianEntry" saveGuardianEntry
    |>.withAction "recordGuardian" recordGuardian
    |>.withService "addGuardian" (withPin addGuardian)

end DialMenu.Menus.Guardians
