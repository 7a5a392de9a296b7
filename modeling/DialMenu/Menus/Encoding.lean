import DialMenu.Menus.Subscriber

/-!
Both encodings of the menus' context. In JSON the pending entries of each feature are a record of their own.
-/

namespace DialMenu.Menus

namespace Account

def toJson (account : Account) : Json := .record [
  ("phone_number", .str account.phone),
  ("address", .str account.address),
  ("language", .str account.language),
  ("status", .str account.status.name)]

def ofJson : Json.Reader Account
  | 0, _ => none
  | d + 1, j => do
    let field ← Json.fields ["phone_number", "address", "language", "status"] j
    let phone ← (field "phone_number").required (Json.text d)
    let address ← (field "address").required (Json.text d)
    let language ← (field "language").required (Json.text d)
    let status ← (field "status").required (Json.named AccountStatus.ofName? d)
    pure { phone, address, language, status }

def encode (account : Account) : Bytes :=
  Wire.ofString account.phone ++ Wire.ofString account.address ++ Wire.ofString account.language ++
    Wire.ofVariant account.status.variant

def decode : Wire.Reader Account := do
  let phone ← Wire.string
  let address ← Wire.string
  let language ← Wire.string
  let status ← Wire.oneOf AccountStatus.all
  pure { phone, address, language, status }

end Account

namespace Profile

def toJson (profile : Profile) : Json := .record [
  ("given_names", Json.ofOption .str profile.givenNames),
  ("family_name", Json.ofOption .str profile.familyName),
  ("gender", Json.ofOption (fun gender => .str gender.name) profile.gender),
  ("year_of_birth", Json.ofOption (fun year => .integer year.toInt) profile.yearOfBirth),
  ("location_name", Json.ofOption .str profile.location)]

def ofJson : Json.Reader Profile
  | 0, _ => none
  | d + 1, j => do
    let field ← Json.fields ["given_names", "family_name", "gender", "year_of_birth", "location_name"] j
    let givenNames ← (field "given_names").optional (Json.text d)
    let familyName ← (field "family_name").optional (Json.text d)
    let gender ← (field "gender").optional (Json.named Gender.ofName? d)
    let yearOfBirth ← (field "year_of_birth").optional (Json.int64 d)
    let location ← (field "location_name").optional (Json.text d)
    pure { givenNames, familyName, gender, yearOfBirth, location }

def encode (profile : Profile) : Bytes :=
  Wire.ofOption Wire.ofString profile.givenNames ++ Wire.ofOption Wire.ofString profile.familyName ++
    Wire.ofOption (fun gender => Wire.ofVariant gender.variant) profile.gender ++
    Wire.ofOption Wire.ofInt64 profile.yearOfBirth ++ Wire.ofOption Wire.ofString profile.location

def decode : Wire.Reader Profile := do
  let givenNames ← Wire.option Wire.string
  let familyName ← Wire.option Wire.string
  let gender ← Wire.option (Wire.oneOf Gender.all)
  let yearOfBirth ← Wire.option Wire.int64
  let location ← Wire.option Wire.string
  pure { givenNames, familyName, gender, yearOfBirth, location }

end Profile

namespace Identity

def toJson (identity : Identity) : Json := .record [
  ("id", .integer identity.id.toNat),
  ("personal_information", identity.profile.toJson)]

def ofJson : Json.Reader Identity
  | 0, _ => none
  | d + 1, j => do
    let field ← Json.fields ["id", "personal_information"] j
    let id ← (field "id").required (Json.uint64 d)
    let profile ← (field "personal_information").required (Profile.ofJson d)
    pure { id, profile }

def encode (identity : Identity) : Bytes := Wire.ofUInt64 identity.id ++ identity.profile.encode

def decode : Wire.Reader Identity := do
  let id ← Wire.uint64
  let profile ← Profile.decode
  pure { id, profile }

end Identity

namespace User

def toJson (user : User) : Json := .record [
  ("account", user.account.toJson),
  ("graph", Json.ofOption Identity.toJson user.identity),
  ("guardians", Json.ofList .str user.guardians)]

def ofJson : Json.Reader User
  | 0, _ => none
  | d + 1, j => do
    let field ← Json.fields ["account", "graph", "guardians"] j
    let account ← (field "account").required (Account.ofJson d)
    let identity ← (field "graph").optional (Identity.ofJson d)
    let guardians ← (field "guardians").required (Json.list Json.text d)
    pure { account, identity, guardians }

def encode (user : User) : Bytes :=
  user.account.encode ++ Wire.ofOption Identity.encode user.identity ++ Wire.ofList Wire.ofString user.guardians

def decode : Wire.Reader User := do
  let account ← Account.decode
  let identity ← Wire.option Identity.decode
  let guardians ← Wire.list Wire.string
  pure { account, identity, guardians }

end User

namespace Pending

/-- A record with a single optional text. -/
def entryToJson (name : String) (entry : Option String) : Json := .record [(name, Json.ofOption .str entry)]

def entryOfJson (name : String) : Json.Reader (Option String)
  | 0, _ => none
  | d + 1, j => do
    let field ← Json.fields [name] j
    (field name).optional (Json.text d)

def toJson (pending : Pending) : Json := .record [
  ("languages", entryToJson "selected" pending.language),
  ("personal_information", pending.profile.toJson),
  ("guardians", entryToJson "candidate" pending.guardian),
  ("extra", Json.ofEntries (fun name => name) Value.toJson pending.extra.entries)]

def ofJson : Json.Reader Pending
  | 0, _ => none
  | d + 1, j => do
    let field ← Json.fields ["languages", "personal_information", "guardians", "extra"] j
    let language ← (field "languages").required (entryOfJson "selected" d)
    let profile ← (field "personal_information").required (Profile.ofJson d)
    let guardian ← (field "guardians").required (entryOfJson "candidate" d)
    let extra ← (field "extra").required (Json.table some Value.ofJson d)
    pure { language, profile, guardian, extra }

def encode (pending : Pending) : Bytes :=
  Wire.ofOption Wire.ofString pending.language ++ pending.profile.encode ++
    Wire.ofOption Wire.ofString pending.guardian ++
    Wire.ofList (Wire.ofEntry Wire.ofString Value.encode) pending.extra.entries

def decode : Wire.Reader Pending := do
  let language ← Wire.option Wire.string
  let profile ← Profile.decode
  let guardian ← Wire.option Wire.string
  let extra ← Wire.table Wire.string Value.decode
  pure { language, profile, guardian, extra }

end Pending

namespace Subscriber

def toJson (s : Subscriber) : Json := .record [
  ("user", s.user.toJson),
  ("data", s.pending.toJson),
  ("errors", Json.ofList .str s.errors),
  ("feedback", Json.ofOption .str s.feedback)]

def ofJson : Json.Reader Subscriber
  | 0, _ => none
  | d + 1, j => do
    let field ← Json.fields ["user", "data", "errors", "feedback"] j
    let user ← (field "user").required (User.ofJson d)
    let pending ← (field "data").required (Pending.ofJson d)
    let errors ← (field "errors").required (Json.list Json.text d)
    let feedback ← (field "feedback").optional (Json.text d)
    pure { user, pending, errors, feedback }

def encode (s : Subscriber) : Bytes :=
  s.user.encode ++ s.pending.encode ++ Wire.ofList Wire.ofString s.errors ++ Wire.ofOption Wire.ofString s.feedback

def decode : Wire.Reader Subscriber := do
  let user ← User.decode
  let pending ← Pending.decode
  let errors ← Wire.list Wire.string
  let feedback ← Wire.option Wire.string
  pure { user, pending, errors, feedback }

instance : Encoded Subscriber where
  toJson := toJson
  ofJson := ofJson
  encode := encode
  decode := decode

end Subscriber

end DialMenu.Menus
