import DialMenu.Proofs.Json.Record
import DialMenu.Proofs.Time.Timestamp
import DialMenu.Proofs.Uuid
import DialMenu.Proofs.Wire

/-!
What it means that both encodings of a value are read back. Identifiers are, and so are instants as their written form
names them.
-/

namespace DialMenu

/-- Both encodings of the value are read back. -/
structure Encoded.Faithful {α : Type} [Encoded α] (a : α) : Prop where
  json : Json.Reads Encoded.ofJson (Encoded.toJson a) a
  binary : Wire.Reads Encoded.decode (Encoded.encode a) a

namespace Instant

theorem reads_ofJson (t : Instant) : Json.Reads ofJson t.toJson t.settled := by
  intro d
  rw [ofJson, toJson, Json.reads_text, Json.bind_guard, Timestamp.read_write]

theorem reads_decode (t : Instant) : Wire.Reads decode t.encode t.settled := by
  refine (Wire.reads_string _).only ?_
  rw [Timestamp.read_write]
  exact .pure t.settled

theorem regular_of_ofJson {d : Nat} {j : Json} {t : Instant} (taken : ofJson d j = some t) : t.Regular := by
  obtain ⟨_, -, read⟩ := Option.bind_eq_some_iff.1 taken
  exact Timestamp.regular_of_read read

theorem regular_of_decode {bytes rest : Bytes} {t : Instant} (taken : decode bytes = some (t, rest)) : t.Regular := by
  obtain ⟨⟨s, _⟩, -, later⟩ := Option.bind_eq_some_iff.1 taken
  cases read : Timestamp.read s with
  | none =>
    simp only [read] at later
    cases later
  | some u =>
    simp only [read] at later
    cases later
    exact Timestamp.regular_of_read read

theorem length_encode_le (t : Instant) : t.encode.length ≤ 140 := by
  have short := Timestamp.length_writeChars_le t
  have bytes := Wire.size_toUTF8_ofList_le (Timestamp.writeChars t)
  rw [encode, Wire.length_ofString, Timestamp.write]
  omega

end Instant

namespace Uuid

theorem reads_ofJson (id : Uuid) : Json.Reads ofJson id.toJson id := by
  intro d
  rw [ofJson, toJson, Json.reads_text, Json.bind_guard, Uuid.read_write]

theorem reads_decode (id : Uuid) : Wire.Reads decode id.encode id := by
  have small : id.bytes.length < 18446744073709551616 := by
    rw [id.length_bytes]
    decide
  refine (Wire.reads_length small).bind ((Wire.reads_take rfl).only ?_)
  rw [ofBytes?_bytes]
  exact .pure id

end Uuid

end DialMenu
