import DialMenu.Menus.Subscriber

/-!
The three backends of the menus: the durable account store, the profile store and the account cache. They
share no transaction, and each may be down.
-/

namespace DialMenu.Menus

inductive BackendError where
  | unavailable (backend : String)
  | notFound (record : String)
deriving DecidableEq, Inhabited

namespace BackendError

def kind : BackendError → String
  | unavailable _ => "Unavailable"
  | notFound _ => "NotFound"

def message : BackendError → String
  | unavailable backend => "Backend unavailable: " ++ backend
  | notFound record => "Record not found: " ++ record

end BackendError

/-- How a PIN compares with the one of the account. -/
inductive PinCheck where
  | valid
  | invalid (remaining : Nat)
  | blocked
deriving DecidableEq, Inhabited

/-- The wrong PIN with this number in a row blocks the account. -/
def maxPinAttempts : Nat := 3

structure AccountRecord where
  pin : String
  language : String
  failedAttempts : Nat := 0
  blocked : Bool := false
deriving DecidableEq, Inhabited

structure AccountStore where
  accounts : Table String AccountRecord := .empty
  /-- For each guardian the accounts guarded, in the order of addition. -/
  wards : Table String (List String) := .empty
  down : Bool := false
deriving DecidableEq, Inhabited

structure ProfileStore where
  profiles : Table String Profile := .empty
  down : Bool := false
deriving DecidableEq, Inhabited

structure AccountCache where
  languages : Table String String := .empty
  /-- For each account its guardians without repetition, in the order of addition. -/
  guardians : Table String (List String) := .empty
  down : Bool := false
deriving DecidableEq, Inhabited

structure Backends where
  accounts : AccountStore := {}
  profiles : ProfileStore := {}
  cache : AccountCache := {}
deriving DecidableEq, Inhabited

namespace AccountStore

/-- Opens the account anew. -/
def insert (store : AccountStore) (phone pin language : String) : AccountStore :=
  { store with accounts := store.accounts.insert phone { pin, language } }

def language? (store : AccountStore) (phone : String) : Option String :=
  (store.accounts.get? phone).map AccountRecord.language

def isBlocked (store : AccountStore) (phone : String) : Bool :=
  (store.accounts.get? phone).any AccountRecord.blocked

def wardsOf (store : AccountStore) (guardian : String) : List String := (store.wards.get? guardian).getD []

end AccountStore

/-- Judges a PIN: a right one forgets the wrong ones before it, and no PIN opens a blocked account. -/
def AccountRecord.judge (record : AccountRecord) (pin : String) : PinCheck × AccountRecord :=
  if record.blocked then (.blocked, record)
  else if record.pin = pin then (.valid, { record with failedAttempts := 0 })
  else
    let attempts := record.failedAttempts + 1
    if maxPinAttempts ≤ attempts then (.blocked, { record with failedAttempts := attempts, blocked := true })
    else (.invalid (maxPinAttempts - attempts), { record with failedAttempts := attempts })

namespace AccountStore

def verifyPin (phone pin : String) (store : AccountStore) : Except BackendError PinCheck × AccountStore :=
  if store.down then (.error (.unavailable "accounts"), store)
  else
    match store.accounts.get? phone with
    | none => (.error (.notFound phone), store)
    | some record =>
      let (check, record) := record.judge pin
      (.ok check, { store with accounts := store.accounts.insert phone record })

def updateLanguage (phone language : String) (store : AccountStore) : Except BackendError Unit × AccountStore :=
  if store.down then (.error (.unavailable "accounts"), store)
  else
    match store.accounts.get? phone with
    | none => (.error (.notFound phone), store)
    | some record => (.ok (), { store with accounts := store.accounts.insert phone { record with language } })

/-- Adds `ward` to those whom `guardian` guards. -/
def addGuardian (guardian ward : String) (store : AccountStore) : Except BackendError Unit × AccountStore :=
  if store.down then (.error (.unavailable "accounts"), store)
  else (.ok (), { store with wards := store.wards.insert guardian (store.wardsOf guardian ++ [ward]) })

end AccountStore

namespace ProfileStore

def profile? (address : String) (store : ProfileStore) : Except BackendError (Option Profile) :=
  if store.down then .error (.unavailable "profiles") else .ok (store.profiles.get? address)

/-- Merges an update into the stored profile. -/
def upsert (address : String) (update : Profile) (store : ProfileStore) : Except BackendError Unit × ProfileStore :=
  if store.down then (.error (.unavailable "profiles"), store)
  else
    let profile := match store.profiles.get? address with
      | some stored => stored.merged update
      | none => update
    (.ok (), { store with profiles := store.profiles.insert address profile })

end ProfileStore

namespace AccountCache

def language? (cache : AccountCache) (phone : String) : Option String := cache.languages.get? phone

def guardiansOf (cache : AccountCache) (ward : String) : List String := (cache.guardians.get? ward).getD []

def setLanguage (phone language : String) (cache : AccountCache) : Except BackendError Unit × AccountCache :=
  if cache.down then (.error (.unavailable "cache"), cache)
  else (.ok (), { cache with languages := cache.languages.insert phone language })

/-- Adds `guardian` to the guardians of `ward`, unless it is one already. -/
def addGuardian (ward guardian : String) (cache : AccountCache) : Except BackendError Unit × AccountCache :=
  if cache.down then (.error (.unavailable "cache"), cache)
  else
    let guardians := cache.guardiansOf ward
    let guardians := if guardian ∈ guardians then guardians else guardians ++ [guardian]
    (.ok (), { cache with guardians := cache.guardians.insert ward guardians })

end AccountCache

namespace Backends

/-- Writes to the account store and to the cache together. Either failure fails the whole, and a half that
was written stays written. -/
def writeBoth (durable : AccountStore → Except BackendError Unit × AccountStore)
    (cached : AccountCache → Except BackendError Unit × AccountCache) (b : Backends) :
    Except BackendError Unit × Backends :=
  let (first, accounts) := durable b.accounts
  let (second, cache) := cached b.cache
  let result := match first with
    | .error err => .error err
    | .ok () => second
  (result, { b with accounts, cache })

def updateLanguage (phone language : String) : Backends → Except BackendError Unit × Backends :=
  writeBoth (AccountStore.updateLanguage phone language) (AccountCache.setLanguage phone language)

/-- Records `guardian` for `ward`. -/
def storeGuardian (guardian ward : String) : Backends → Except BackendError Unit × Backends :=
  writeBoth (AccountStore.addGuardian guardian ward) (AccountCache.addGuardian ward guardian)

/-- Judges a PIN against the account store alone. -/
def verifyPin (phone pin : String) (b : Backends) : Except BackendError PinCheck × Backends :=
  let (result, accounts) := b.accounts.verifyPin phone pin
  (result, { b with accounts })

/-- Merges an update into the stored profile. -/
def upsertProfile (address : String) (update : Profile) (b : Backends) : Except BackendError Unit × Backends :=
  let (result, profiles) := b.profiles.upsert address update
  (result, { b with profiles })

end Backends

end DialMenu.Menus
