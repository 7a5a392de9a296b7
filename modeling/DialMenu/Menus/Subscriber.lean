import DialMenu.Encoding
import DialMenu.Event
import DialMenu.Value

/-!
The context of the menus: who is calling, what is being entered, and what went wrong so far.
-/

namespace DialMenu.Menus

inductive AccountStatus where
  | active
  | blocked
deriving DecidableEq, Inhabited

structure Account where
  phone : String := ""
  /-- The address under which the profile is stored. -/
  address : String := ""
  language : String := ""
  status : AccountStatus := .active
deriving DecidableEq, Inhabited

inductive Gender where
  | male
  | female
deriving DecidableEq, Inhabited

/-- The fields of a profile. Each is there once the user has supplied it. -/
structure Profile where
  givenNames : Option String := none
  familyName : Option String := none
  gender : Option Gender := none
  yearOfBirth : Option Int64 := none
  location : Option String := none
deriving DecidableEq, Inhabited

/-- A user as the identity service knows them. -/
structure Identity where
  id : UInt64 := 0
  profile : Profile := {}
deriving DecidableEq, Inhabited

structure User where
  account : Account := {}
  identity : Option Identity := none
  guardians : List String := []
deriving DecidableEq, Inhabited

/-- What was entered and not yet authorized. -/
structure Pending where
  language : Option String := none
  profile : Profile := {}
  guardian : Option String := none
  /-- Values of features without a field of their own. -/
  extra : Table String Value := .empty
deriving DecidableEq, Inhabited

structure Subscriber where
  user : User := {}
  pending : Pending := {}
  /-- The details of rejected service calls. -/
  errors : List String := []
  feedback : Option String := none
deriving DecidableEq, Inhabited

namespace AccountStatus

def name : AccountStatus → String
  | active => "ACTIVE"
  | blocked => "BLOCKED"

def all : List AccountStatus := [active, blocked]

def ofName? (s : String) : Option AccountStatus := all.find? fun status => status.name = s

def variant : AccountStatus → Nat
  | active => 0
  | blocked => 1

end AccountStatus

namespace Gender

def name : Gender → String
  | male => "MALE"
  | female => "FEMALE"

def all : List Gender := [male, female]

def ofName? (s : String) : Option Gender := all.find? fun gender => gender.name = s

def variant : Gender → Nat
  | male => 0
  | female => 1

end Gender

namespace Profile

/-- The fields that `update` sets win, the others are kept. -/
def merged (profile update : Profile) : Profile where
  givenNames := update.givenNames.or profile.givenNames
  familyName := update.familyName.or profile.familyName
  gender := update.gender.or profile.gender
  yearOfBirth := update.yearOfBirth.or profile.yearOfBirth
  location := update.location.or profile.location

/-- The profile as a value that a service can answer with. -/
def toValue (profile : Profile) : Value :=
  let field {α : Type} (write : α → Value) (a : Option α) : Value := (a.map write).getD .null
  .ofEntries [
    ("given_names", field .text profile.givenNames),
    ("family_name", field .text profile.familyName),
    ("gender", field (fun gender => .text gender.name) profile.gender),
    ("year_of_birth", field .int profile.yearOfBirth),
    ("location_name", field .text profile.location)]

/-- The fields of a value. Fields of another kind are left out. -/
def ofValue (value : Value) : Profile where
  givenNames := (value.get? "given_names").bind Value.asText
  familyName := (value.get? "family_name").bind Value.asText
  gender := ((value.get? "gender").bind Value.asText).bind Gender.ofName?
  yearOfBirth := (value.get? "year_of_birth").bind Value.asInt
  location := (value.get? "location_name").bind Value.asText

end Profile

namespace User

/-- The stored profile, if the identity service knows the user. -/
def profile? (user : User) : Option Profile := user.identity.map Identity.profile

end User

namespace Subscriber

def ofAccount (account : Account) : Subscriber := { user := { account } }

def phone (s : Subscriber) : String := s.user.account.phone

def isBlocked (s : Subscriber) : Bool := s.user.account.status = .blocked

/-- The stored profile under the pending edits. -/
def shownProfile (s : Subscriber) : Profile := (s.user.profile?.getD {}).merged s.pending.profile

def placeholder (s : Subscriber) (name : String) : Option String :=
  match name with
  | "phone_number" => some s.phone
  | "language" => some s.user.account.language
  | "selected_language" => s.pending.language
  | "guardian" => s.pending.guardian
  | "guardians" => some (", ".intercalate s.user.guardians)
  | "given_names" => s.shownProfile.givenNames
  | "family_name" => s.shownProfile.familyName
  | "gender" => s.shownProfile.gender.map Gender.name
  | "year_of_birth" => s.shownProfile.yearOfBirth.map fun year => String.ofList (Numeral.ofInt year.toInt)
  | "location_name" => s.shownProfile.location
  | _ => none

instance : Context Subscriber where
  feedback := feedback
  setFeedback tag s := { s with feedback := tag }
  placeholder := placeholder

end Subscriber

end DialMenu.Menus
