import DialMenu.Interpreter
import DialMenu.Menus.Rules
import DialMenu.Text.Basic

/-!
The profile menu: edit the fields of the profile one after another, or view them, each with the PIN.
-/

namespace DialMenu.Menus.ProfileMenu

def changeErrorCode : String := "CHANGE_ERROR"

def loadErrorCode : String := "LOAD_ERROR"

def earliestYearOfBirth : Int := 1900

/-- A state that leads back to `target` with a feedback tag. -/
private def retry (feedback target : String) (tags : List Tag) : Definition.State where
  tags := tags
  raise := some { kind := .retry, feedback := some feedback }
  on := .ofList [(.retry, [{ target }])]

def definition : Definition where
  id := "profile"
  initial := "profileMenu"
  states := .ofList [
    ("accountBlocked", { kind := .final, tags := [.error] }),
    ("authorizingProfileChange", {
      tags := [.invoked]
      call := some {
        service := "initiateProfileChange"
        onDone := [{ target := "profileChangeSuccess", guard := some "isSuccess", actions := ["applyProfileChange"] }]
        onError := [
          { target := "accountBlocked", guard := some "isBlocked", actions := ["updateErrorMessages"] },
          { target := "changeError", guard := some "isChangeError", actions := ["updateErrorMessages"] },
          { target := "invalidPinPC", guard := some "isInvalidPin", actions := ["updateErrorMessages"] }] } }),
    ("authorizingProfileView", {
      tags := [.invoked]
      call := some {
        service := "loadPersonalInformation"
        onDone := [{ target := "displayingProfile", guard := some "isSuccess", actions := ["savePersonalInformation"] }]
        onError := [
          { target := "accountBlocked", guard := some "isBlocked" },
          { target := "loadError", guard := some "isLoadError", actions := ["updateErrorMessages"] },
          { target := "invalidPinPV", guard := some "isInvalidPin" }] } }),
    ("changeError", { kind := .final, tags := [.error] }),
    ("displayingProfile", {
      kind := .final, description := some "Displays the account's profile.", tags := [.resolved] }),
    ("enteringFamilyName", {
      on := .ofList [
        (.transit, [
          { target := "selectingGender", guard := some "isValidNameGenderAbsent", actions := ["saveFamilyName"] },
          { target := "enteringProfileChangePin", guard := some "isValidName", actions := ["saveFamilyName"] },
          { target := "invalidName" }]),
        (.back, [{ target := "enteringGivenNames" }])] }),
    ("enteringGivenNames", {
      on := .ofList [
        (.transit, [
          { target := "enteringFamilyName", guard := some "isValidName", actions := ["saveGivenNames"] },
          { target := "invalidName" }]),
        (.back, [{ target := "profileMenu" }])] }),
    ("enteringLocation", {
      on := .ofList [
        (.transit, [
          { target := "enteringProfileChangePin", guard := some "isValidLocation", actions := ["saveLocation"] },
          { target := "invalidLocationEntry" }]),
        (.back, [{ target := "profileMenu" }])] }),
    ("enteringProfileChangePin", {
      tags := [.encryptInput, .error]
      on := .ofList [
        (.transit, [{ target := "authorizingProfileChange" }]),
        (.back, [{ target := "profileMenu" }])] }),
    ("enteringProfileViewPin", {
      tags := [.encryptInput, .error]
      on := .ofList [
        (.transit, [{ target := "authorizingProfileView" }]),
        (.back, [{ target := "profileMenu" }])] }),
    ("enteringYOB", {
      description := some "Expects a year of birth between 1900 and the current year."
      on := .ofList [
        (.transit, [
          { target := "enteringLocation", guard := some "isValidYOBLocationAbsent", actions := ["saveYOB"] },
          { target := "enteringProfileChangePin", guard := some "isValidYOB", actions := ["saveYOB"] },
          { target := "invalidYOBEntry" }]),
        (.back, [{ target := "profileMenu" }])] }),
    ("exit", { kind := .final }),
    ("invalidGenderOption", retry "invalidGenderOption" "selectingGender" []),
    ("invalidLocationEntry", retry "invalidLocationOption" "enteringLocation" []),
    ("invalidName", retry "invalidName" "enteringGivenNames" []),
    ("invalidPinPC", retry "invalidPinPC" "enteringProfileChangePin" []),
    ("invalidPinPV", retry "invalidPinPV" "enteringProfileViewPin" [.error]),
    ("invalidYOBEntry", retry "invalidYOBOption" "enteringYOB" []),
    ("loadError", { kind := .final, tags := [.error] }),
    ("profileChangeSuccess", {
      tags := [.resolved]
      on := .ofList [
        (.transit, [{ target := "exit", guard := some "isOption9" }]),
        (.back, [{ target := "settingsMenu" }])] }),
    ("profileMenu", {
      on := .ofList [
        (.transit, [
          { target := "enteringGivenNames", guard := some "isOption1" },
          { target := "selectingGender", guard := some "isOption2" },
          { target := "enteringYOB", guard := some "isOption3" },
          { target := "enteringLocation", guard := some "isOption4" },
          { target := "enteringProfileViewPin", guard := some "isOption5" }]),
        (.back, [{ target := "settingsMenu" }])] }),
    ("selectingGender", {
      on := .ofList [
        (.transit, [
          { target := "enteringYOB", guard := some "isValidGenderYOBAbsent", actions := ["saveGender"] },
          { target := "enteringProfileChangePin", guard := some "isValidGender", actions := ["saveGender"] },
          { target := "invalidGenderOption" }]),
        (.back, [{ target := "profileMenu" }])] }),
    ("settingsMenu", { kind := .final })]

/-- What stands between single spaces. There is one word more than there are spaces. -/
def words : List Char → List (List Char)
  | [] => [[]]
  | c :: cs =>
    if c = ' ' then [] :: words cs
    else
      match words cs with
      | word :: rest => (c :: word) :: rest
      | [] => [[c]]

/-- An ASCII capital and at least one small letter. -/
def isCapitalized : List Char → Bool
  | capital :: small :: rest => capital.isUpper && (small :: rest).all Char.isLower
  | _ => false

/-- One or two capitalized words. -/
def isName (s : String) : Bool :=
  let names := words s.toList
  1 ≤ names.length && names.length ≤ 2 && names.all isCapitalized

def gender? (input : String) : Option Gender :=
  if input = "1" then some .male
  else if input = "2" then some .female
  else none

def year? (input : String) : Option Int64 := Numeral.int64? (Text.trimmed input.toList)

def isYearOfBirth (currentYear : Int) (input : String) : Bool :=
  (year? input).any fun year => earliestYearOfBirth ≤ year.toInt && year.toInt ≤ currentYear

/-- Letters and blanks, not only blanks. -/
def isLocation (input : String) : Bool :=
  let cs := Text.trimmed input.toList
  !cs.isEmpty && cs.all fun c => c.isAlpha || Text.isBlank c

def isValidName (_ : Subscriber) (event : Event) : Bool := isName event.input

def isValidGender (_ : Subscriber) (event : Event) : Bool := (gender? event.input).isSome

def isValidYear (currentYear : Int) (_ : Subscriber) (event : Event) : Bool := isYearOfBirth currentYear event.input

def isValidLocation (_ : Subscriber) (event : Event) : Bool := isLocation event.input

/-- The stored profile does not have the field. -/
def lacks {α : Type} (field : Profile → Option α) (s : Subscriber) : Bool := (s.user.profile?.bind field).isNone

def saveGivenNames (s : Subscriber) (event : Event) : Subscriber :=
  { s with pending.profile.givenNames := some event.input }

def saveFamilyName (s : Subscriber) (event : Event) : Subscriber :=
  { s with pending.profile.familyName := some event.input }

def saveGender (s : Subscriber) (event : Event) : Subscriber :=
  { s with pending.profile.gender := gender? event.input }

def saveYear (s : Subscriber) (event : Event) : Subscriber :=
  { s with pending.profile.yearOfBirth := year? event.input }

def saveLocation (s : Subscriber) (event : Event) : Subscriber :=
  { s with pending.profile.location := some (Text.trim event.input) }

/-- Makes the pending edits part of the profile. -/
def applyChange (s : Subscriber) (_ : Event) : Subscriber :=
  let identity := s.user.identity.getD {}
  { s with
    pending.profile := {}
    user.identity := some { identity with profile := identity.profile.merged s.pending.profile } }

/-- Takes over the profile that the service answered with. -/
def saveLoaded (s : Subscriber) (event : Event) : Subscriber :=
  match event.output.bind (Value.get? "personal_information") with
  | some value => { s with user.identity := some { s.user.identity.getD {} with profile := .ofValue value } }
  | none => s

/-- Merges the pending edits into the stored profile. -/
def changeProfile (s : Subscriber) (b : Backends) : Except ServiceError Value × Backends :=
  match b.upsertProfile s.user.account.address s.pending.profile with
  | (.ok (), b) => (.ok .success, b)
  | (.error err, b) => (.error (.machine changeErrorCode err.message), b)

/-- Answers with the stored profile, or an empty one. -/
def loadProfile (s : Subscriber) (b : Backends) : Except ServiceError Value × Backends :=
  match b.profiles.profile? s.user.account.address with
  | .ok profile =>
    (.ok (.ofEntries [("success", .bool true), ("personal_information", (profile.getD {}).toValue)]), b)
  | .error err => (.error (.machine loadErrorCode err.message), b)

/-- Years of birth after the current year are not accepted. -/
def bindings (currentYear : Int) : Bindings Subscriber Backends :=
  sharedBindings
    |>.withGuard "isValidName" isValidName
    |>.withGuard "isValidNameGenderAbsent" (fun s e => isValidName s e && lacks Profile.gender s)
    |>.withGuard "isValidGender" isValidGender
    |>.withGuard "isValidGenderYOBAbsent" (fun s e => isValidGender s e && lacks Profile.yearOfBirth s)
    |>.withGuard "isValidYOB" (isValidYear currentYear)
    |>.withGuard "isValidYOBLocationAbsent" (fun s e => isValidYear currentYear s e && lacks Profile.location s)
    |>.withGuard "isValidLocation" isValidLocation
    |>.withGuard "isInvalidPin" (hasCode invalidPinCode)
    |>.withGuard "isChangeError" (hasCode changeErrorCode)
    |>.withGuard "isLoadError" (hasCode loadErrorCode)
    |>.withAction "saveGivenNames" saveGivenNames
    |>.withAction "saveFamilyName" saveFamilyName
    |>.withAction "saveGender" saveGender
    |>.withAction "saveYOB" saveYear
    |>.withAction "saveLocation" saveLocation
    |>.withAction "applyProfileChange" applyChange
    |>.withAction "savePersonalInformation" saveLoaded
    |>.withService "initiateProfileChange" (withPin changeProfile)
    |>.withService "loadPersonalInformation" (withPin loadProfile)

end DialMenu.Menus.ProfileMenu
