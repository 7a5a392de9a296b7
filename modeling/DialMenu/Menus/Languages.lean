import DialMenu.Interpreter
import DialMenu.Menus.Rules

/-!
The language menu: choose one of the supported languages in three pages, then confirm with the PIN.
-/

namespace DialMenu.Menus.Languages

def changeErrorCode : String := "CHANGE_ERROR"

/-- The menu option and the code of each supported language. -/
def supported : List (String × String) := [
  ("1", "eng"), ("2", "swa"), ("3", "kam"), ("4", "kik"), ("5", "luo"), ("6", "gir")]

def languageFor? (option : String) : Option String := Entries.get? option supported

/-- Every page accepts any supported option. -/
private def choose : Route :=
  { target := "enteringPin", guard := some "isValidLanguageOption", actions := ["saveLanguageSelection"] }

def definition : Definition where
  id := "languages"
  initial := "firstLanguageSet"
  states := .ofList [
    ("accountBlocked", { kind := .final, description := some "Account is blocked.", tags := [.error] }),
    ("authorizingLanguageChange", {
      description := some "Invoked service to authorize language change."
      tags := [.invoked]
      call := some {
        service := "initiateLanguageChange"
        onDone := [{ target := "changeSuccess", guard := some "isSuccess", actions := ["saveAccountLanguage"] }]
        onError := [
          { target := "accountBlocked", guard := some "isBlocked", actions := ["updateErrorMessages"] },
          { target := "invalidPin", guard := some "isInvalidPin", actions := ["updateErrorMessages"] },
          { target := "changeError", guard := some "isChangeError", actions := ["updateErrorMessages"] }] } }),
    ("changeError", { kind := .final, description := some "Language change failed.", tags := [.error] }),
    ("changeSuccess", {
      description := some "Language change is successful."
      tags := [.resolved]
      on := .ofList [
        (.transit, [{ target := "exit", guard := some "isOption9" }]),
        (.back, [{ target := "settingsMenu" }])] }),
    ("enteringPin", {
      description := some "Expects valid PIN matching account's PIN."
      tags := [.encryptInput, .error]
      on := .ofList [
        (.transit, [
          { target := "accountBlocked", guard := some "isBlocked" },
          { target := "authorizingLanguageChange" }]),
        (.back, [{ target := "firstLanguageSet" }])] }),
    ("exit", { kind := .final, description := some "Terminates USSD session." }),
    ("firstLanguageSet", {
      description := some "Expects language selection from first language set."
      on := .ofList [
        (.transit, [
          choose,
          { target := "secondLanguageSet", guard := some "isOption11" },
          { target := "exit", guard := some "isOption00" },
          { target := "invalidLanguageOption" }]),
        (.back, [{ target := "settingsMenu" }])] }),
    ("invalidLanguageOption", {
      description := some "Invalid language option; retries language selection."
      raise := some { kind := .retry, feedback := some "invalidLanguage" }
      on := .ofList [(.retry, [{ target := "firstLanguageSet" }])] }),
    ("invalidPin", {
      description := some "Invalid PIN; retries PIN entry."
      raise := some { kind := .retry, feedback := some "invalidPin" }
      on := .ofList [(.retry, [{ target := "enteringPin" }])] }),
    ("secondLanguageSet", {
      description := some "Expects language selection from second language set."
      on := .ofList [
        (.transit, [
          choose,
          { target := "thirdLanguageSet", guard := some "isOption11" },
          { target := "firstLanguageSet", guard := some "isOption22" },
          { target := "invalidLanguageOption" }])] }),
    ("settingsMenu", { kind := .final, description := some "Transitions to settings menu." }),
    ("thirdLanguageSet", {
      description := some "Expects language selection from third language set."
      on := .ofList [
        (.transit, [
          choose,
          { target := "secondLanguageSet", guard := some "isOption22" },
          { target := "invalidLanguageOption" }])] })]

def isValidLanguageOption (_ : Subscriber) (event : Event) : Bool := (languageFor? event.input).isSome

def saveLanguageSelection (s : Subscriber) (event : Event) : Subscriber :=
  { s with pending.language := languageFor? event.input }

def saveAccountLanguage (s : Subscriber) (_ : Event) : Subscriber :=
  match s.pending.language with
  | some language => { s with user.account.language := language }
  | none => s

/-- Writes the selected language for the account. -/
def changeLanguage (s : Subscriber) (b : Backends) : Except ServiceError Value × Backends :=
  match s.pending.language with
  | none => (.error (.machine changeErrorCode "No language selected."), b)
  | some language =>
    match b.updateLanguage s.phone language with
    | (.ok (), b) => (.ok .success, b)
    | (.error err, b) => (.error (.machine changeErrorCode ("Language change failed: " ++ err.message)), b)

def bindings : Bindings Subscriber Backends :=
  sharedBindings
    |>.withGuard "isValidLanguageOption" isValidLanguageOption
    |>.withGuard "isInvalidPin" (hasCode invalidPinCode)
    |>.withGuard "isChangeError" (hasCode changeErrorCode)
    |>.withAction "saveLanguageSelection" saveLanguageSelection
    |>.withAction "saveAccountLanguage" saveAccountLanguage
    |>.withService "initiateLanguageChange" (withPin changeLanguage)

end DialMenu.Menus.Languages
