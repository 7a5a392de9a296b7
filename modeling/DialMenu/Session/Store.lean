import DialMenu.Session.Codec

/-!
Stores of session records. `SessionStore` is what the rest of the library asks of one; `MemoryStore` keeps the
encoded records in a table, each with the instant at which it expires.
-/

namespace DialMenu

/-- The operations of a store whose state is of type `S`. Each answers and leaves a state. -/
structure SessionStore (S C : Type) where
  get : (now : Instant) → (key : String) → S → Except SessionError (Option (Session C)) × S
  set : (now : Instant) → (session : Session C) → (ttl : Duration) → S → Except SessionError Unit × S
  delete : (key : String) → S → Except SessionError Unit × S

structure MemoryStore.Record where
  bytes : Bytes
  expiresAt : Instant
deriving DecidableEq

structure MemoryStore where
  codec : Codec := .json
  records : Table String MemoryStore.Record := .empty
deriving DecidableEq, Inhabited

namespace MemoryStore

def Record.isLive (record : Record) (now : Instant) : Bool := now < record.expiresAt

/-- The number of live records. -/
def size (store : MemoryStore) (now : Instant) : Nat := store.records.values.countP fun record => record.isLive now

def isEmpty (store : MemoryStore) (now : Instant) : Bool := store.size now = 0

def without (key : String) (store : MemoryStore) : MemoryStore := { store with records := store.records.erase key }

def holding (key : String) (record : Record) (store : MemoryStore) : MemoryStore :=
  { store with records := store.records.insert key record }

@[simp] theorem get?_without (store : MemoryStore) (key other : String) :
    (store.without key).records.get? other = if key = other then none else store.records.get? other :=
  Table.get?_erase _ _ _

@[simp] theorem get?_holding (store : MemoryStore) (key other : String) (record : Record) :
    (store.holding key record).records.get? other = if key = other then some record else store.records.get? other :=
  Table.get?_insert _ _ _ _

variable {C : Type} [Encoded C]

/-- The live record under a key. An expired record is removed. -/
def get (now : Instant) (key : String) (store : MemoryStore) :
    Except SessionError (Option (Session C)) × MemoryStore :=
  match store.records.get? key with
  | none => (.ok none, store)
  | some record =>
    if record.isLive now then (some <$> Session.decode store.codec record.bytes, store)
    else (.ok none, store.without key)

/-- The longest lifetime that a record can be given, in nanoseconds: 2^63 - 1 milliseconds. -/
def longestLifetime : Nat := 9223372036854775807 * 1000000

/-- Writes a record, unless it cannot be encoded or its lifetime is too long to be counted. -/
def set (now : Instant) (session : Session C) (ttl : Duration) (store : MemoryStore) :
    Except SessionError Unit × MemoryStore :=
  match session.encode store.codec with
  | .error err => (.error err, store)
  | .ok bytes =>
    if longestLifetime < ttl.total then
      (.error (.store "Source duration value is out of range for the target type"), store)
    else (.ok (), store.holding session.key { bytes, expiresAt := now.addSaturating ttl })

/-- As every record can be encoded, only its lifetime can keep it from being written. -/
theorem set_eq (now : Instant) (session : Session C) (ttl : Duration) (store : MemoryStore) :
    set now session ttl store =
      if longestLifetime < ttl.total then
        (.error (.store "Source duration value is out of range for the target type"), store)
      else (.ok (), store.holding session.key ⟨session.written store.codec, now.addSaturating ttl⟩) := rfl

def delete (key : String) (store : MemoryStore) : Except SessionError Unit × MemoryStore :=
  (.ok (), store.without key)

variable (C) in
/-- The operations of the table as those of a store. -/
def operations : SessionStore MemoryStore C where
  get := get
  set := set
  delete := delete

end MemoryStore

/-- The operations of a store that can be told to refuse. -/
inductive StoreOperation where
  | get
  | set
  | delete
deriving DecidableEq, Inhabited

def StoreOperation.name : StoreOperation → String
  | get => "get"
  | set => "set"
  | delete => "delete"

/-- A store that refuses some operations, and for the rest does what the inner store does. -/
structure Refusing (S : Type) where
  refused : List StoreOperation := []
  inner : S

namespace Refusing

variable {S C α : Type}

private def attempt (operation : StoreOperation) (run : S → Except SessionError α × S) (store : Refusing S) :
    Except SessionError α × Refusing S :=
  if operation ∈ store.refused then (.error (.store (operation.name ++ " refused")), store)
  else
    let (result, inner) := run store.inner
    (result, { store with inner })

def operations (inner : SessionStore S C) : SessionStore (Refusing S) C where
  get now key := attempt .get (inner.get now key)
  set now session ttl := attempt .set (inner.set now session ttl)
  delete key := attempt .delete (inner.delete key)

end Refusing

end DialMenu
