import DialMenu.Encoding
import DialMenu.Session.Basic

/-!
The stored form of sessions, in JSON or in binary. A record of another version is refused after it was read.
-/

namespace DialMenu

/-- Why a session operation fails. -/
inductive SessionError where
  /-- The bytes are no record. -/
  | undecodable
  | unsupportedVersion (found supported : UInt32)
  | unknownMachine (id : String)
  | store (message : String)
deriving DecidableEq, Inhabited

namespace SessionError

def kind : SessionError → String
  | undecodable => "DeserializationFailed"
  | unsupportedVersion _ _ => "UnsupportedVersion"
  | unknownMachine _ => "UnknownMachine"
  | store _ => "Store"

def message : SessionError → String
  | undecodable => "Deserialization failed"
  | unsupportedVersion found supported =>
    "Unsupported session version " ++ String.ofList (Numeral.ofNat found.toNat) ++ ", supported: " ++
      String.ofList (Numeral.ofNat supported.toNat)
  | unknownMachine id => "Unknown machine '" ++ id ++ "'"
  | store message => "Session store failure: " ++ message

end SessionError

/-- The form of stored records. -/
inductive Codec where
  | json
  /-- Fixed-width binary. -/
  | binary
deriving DecidableEq, Inhabited

namespace Codec

def name : Codec → String
  | json => "json"
  | binary => "bincode"

def ofName? (s : String) : Option Codec := [json, binary].find? fun codec => codec.name = s

end Codec

namespace Session

variable {C : Type} [Encoded C]

def toJson (session : Session C) : Json := .record [
  ("version", .integer session.version.toNat),
  ("id", session.id.toJson),
  ("key", .str session.key),
  ("machine_id", .str session.machine),
  ("state_id", .str session.state),
  ("context", Encoded.toJson session.context),
  ("created_at", session.createdAt.toJson),
  ("updated_at", session.updatedAt.toJson),
  ("ttl_secs", .integer session.lifetime.toNat)]

def ofJson : Json.Reader (Session C)
  | 0, _ => none
  | d + 1, j => do
    let field ← Json.fields
      ["version", "id", "key", "machine_id", "state_id", "context", "created_at", "updated_at", "ttl_secs"] j
    let version ← (field "version").required (Json.uint32 d)
    let id ← (field "id").required (Uuid.ofJson d)
    let key ← (field "key").required (Json.text d)
    let machine ← (field "machine_id").required (Json.text d)
    let state ← (field "state_id").required (Json.text d)
    let context ← (field "context").required (Encoded.ofJson d)
    let createdAt ← (field "created_at").required (Instant.ofJson d)
    let updatedAt ← (field "updated_at").required (Instant.ofJson d)
    let lifetime ← (field "ttl_secs").required (Json.uint64 d)
    pure { version, id, key, machine, state, context, createdAt, updatedAt, lifetime }

def toBytes (session : Session C) : Bytes :=
  Wire.ofUInt32 session.version ++ session.id.encode ++ Wire.ofString session.key ++ Wire.ofString session.machine ++
    Wire.ofString session.state ++ Encoded.encode session.context ++ session.createdAt.encode ++
    session.updatedAt.encode ++ Wire.ofUInt64 session.lifetime

def ofBytes : Wire.Reader (Session C) := do
  let version ← Wire.uint32
  let id ← Uuid.decode
  let key ← Wire.string
  let machine ← Wire.string
  let state ← Wire.string
  let context ← Encoded.decode
  let createdAt ← Instant.decode
  let updatedAt ← Instant.decode
  let lifetime ← Wire.uint64
  pure { version, id, key, machine, state, context, createdAt, updatedAt, lifetime }

/-- Only records of the current version are taken. -/
def checked (session : Option (Session C)) : Except SessionError (Session C) :=
  match session with
  | none => .error .undecodable
  | some session =>
    if session.version = currentVersion then .ok session
    else .error (.unsupportedVersion session.version currentVersion)

/-- The record as it is written. -/
def written (codec : Codec) (session : Session C) : Bytes :=
  match codec with
  | .json => session.toJson.write.toUTF8.toList
  | .binary => session.toBytes

/-- Neither form refuses a record. -/
def encode (codec : Codec) (session : Session C) : Except SessionError Bytes := .ok (session.written codec)

/-- Reads a record from its text. -/
def ofText (s : String) : Except SessionError (Session C) := checked (Json.Reader.ofText ofJson s)

def decode (codec : Codec) (bytes : Bytes) : Except SessionError (Session C) :=
  match codec with
  | .json => checked ((Wire.utf8? bytes).bind (Json.Reader.ofText ofJson))
  | .binary => checked (Wire.decode ofBytes bytes)

end Session

end DialMenu
