import DialMenu.Json.Reading
import DialMenu.Time.Timestamp
import DialMenu.Uuid
import DialMenu.Wire

/-!
Types with both encodings of stored records: JSON and fixed-width binary.
-/

namespace DialMenu

class Encoded (α : Type) where
  toJson : α → Json
  ofJson : Json.Reader α
  encode : α → Bytes
  decode : Wire.Reader α

namespace Instant

def toJson (t : Instant) : Json := .str (Timestamp.write t)

def ofJson : Json.Reader Instant := fun d j => (Json.text d j).bind Timestamp.read

/-- Both encodings use the written form. -/
def encode (t : Instant) : Bytes := Wire.ofString (Timestamp.write t)

def decode : Wire.Reader Instant := do
  match Timestamp.read (← Wire.string) with
  | some t => pure t
  | none => failure

end Instant

namespace Uuid

def toJson (id : Uuid) : Json := .str id.write

def ofJson : Json.Reader Uuid := fun d j => (Json.text d j).bind Uuid.read

/-- The binary form is a length, which is always 16, and the bytes. -/
def encode (id : Uuid) : Bytes := Wire.ofLength id.bytes.length ++ id.bytes

def decode : Wire.Reader Uuid := do
  match Uuid.ofBytes? (← Wire.take (← Wire.length)) with
  | some id => pure id
  | none => failure

end Uuid

end DialMenu
