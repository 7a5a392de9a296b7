import DialMenu.Session.Codec

/-!
The settings of a deployment: where conversations begin, how long a record lives, how records are stored.
-/

namespace DialMenu

structure Config where
  /-- The machine in which a new conversation begins. -/
  entry : String := ""
  /-- The seconds for which a record lives after it was written. -/
  lifetime : UInt64 := 180
  keyPrefix : String := "ussd:session:"
  codec : Codec := .json
deriving DecidableEq, Inhabited

namespace Config

/-- A part of a second does not count. -/
def withLifetime (config : Config) (lifetime : Duration) : Config := { config with lifetime := lifetime.seconds }

/-- The lifetime as a duration. -/
def ttl (config : Config) : Duration := Duration.ofSeconds config.lifetime

/-- The key of the record for a session id of the transport. -/
def keyFor (config : Config) (sessionId : String) : String := config.keyPrefix ++ sessionId

def toJson (config : Config) : Json := .record [
  ("entry_machine", .str config.entry),
  ("ttl_secs", .integer config.lifetime.toNat),
  ("key_prefix", .str config.keyPrefix),
  ("codec", .str config.codec.name)]

/-- Every field may be left out. -/
def ofJson : Json.Reader Config
  | 0, _ => none
  | d + 1, j => do
    let standard : Config := {}
    let field ← Json.fields ["entry_machine", "ttl_secs", "key_prefix", "codec"] j
    let entry ← (field "entry_machine").orDefault standard.entry (Json.text d)
    let lifetime ← (field "ttl_secs").orDefault standard.lifetime (Json.uint64 d)
    let keyPrefix ← (field "key_prefix").orDefault standard.keyPrefix (Json.text d)
    let codec ← (field "codec").orDefault standard.codec (Json.named Codec.ofName? d)
    pure { entry, lifetime, keyPrefix, codec }

/-- Reads the settings from their text. -/
def read (s : String) : Except SessionError Config :=
  match Json.Reader.ofText ofJson s with
  | some config => .ok config
  | none => .error .undecodable

end Config

end DialMenu
