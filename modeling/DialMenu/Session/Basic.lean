import DialMenu.Time.Instant
import DialMenu.Uuid

/-!
The record of a conversation between two keystrokes.
-/

namespace DialMenu

structure Session (C : Type) where
  /-- The version of the record's form. -/
  version : UInt32
  /-- The identity of the conversation. -/
  id : Uuid
  /-- The key under which the record is stored. -/
  key : String
  machine : String
  state : String
  context : C
  createdAt : Instant
  updatedAt : Instant
  /-- The seconds that the last write granted. -/
  lifetime : UInt64
deriving DecidableEq

/-- What an operation takes from outside: the reading of the clock, and an identity for a new conversation. The clock
has no leap second in the middle of a minute. -/
structure Stamp where
  now : Instant
  id : Uuid
  regular : now.Regular
deriving DecidableEq

instance : Inhabited Stamp := ⟨{ now := .epoch, id := default, regular := by decide }⟩

namespace Session

variable {C : Type}

/-- The version that is written, and the only one that is read. -/
def currentVersion : UInt32 := 1

/-- A new conversation. Its lifetime is counted in whole seconds. -/
def fresh (stamp : Stamp) (key machine state : String) (context : C) (lifetime : Duration) : Session C :=
  { version := currentVersion, id := stamp.id, key, machine, state, context, createdAt := stamp.now
    updatedAt := stamp.now, lifetime := lifetime.seconds }

/-- The conversation at another place, with a new lifetime from now on. -/
def advanced (session : Session C) (now : Instant) (state : String) (context : C) (lifetime : Duration) : Session C :=
  { session with state, context, updatedAt := now, lifetime := lifetime.seconds }

/-- The end of the lifetime, if the lifetime is a span and its end is an instant. -/
def expiry? (session : Session C) : Option Instant := do
  let seconds ← Span.signed? session.lifetime
  let span ← Span.ofSeconds? seconds
  session.updatedAt.shift? span

/-- The end of the lifetime, or the latest instant if there is no such end. -/
def expiresAt (session : Session C) : Instant := session.expiry?.getD .latest

end Session

end DialMenu
