import DialMenu.Proofs.Session.Codec

/-!
The names in a record. They do not depend on its context in either form, so whatever a record is read as, it is of the
same conversation and at the same place.
-/

namespace DialMenu

/-- The form can hold the name: in binary its length has to fit a word. -/
def Codec.Holds (codec : Codec) (name : String) : Prop := codec = .binary → Wire.Addressable (Wire.ofString name)

theorem Wire.Reads.bind_append {α β : Type} {reader : Wire.Reader α} {bytes : Bytes} {a : α}
    (read : Wire.Reads reader bytes a) (fits : Wire.Addressable bytes) (next : α → Wire.Reader β) (rest : Bytes) :
    (reader >>= next) (bytes ++ rest) = next a rest := by
  change (reader (bytes ++ rest) >>= fun p => next p.1 p.2) = _
  rw [read fits]
  rfl

namespace Session

variable {C : Type} {session other : Session C} {codec : Codec}

/-- Where a conversation is kept, and where it stands. -/
structure Place where
  key : String
  machine : String
  state : String

def place (session : Session C) : Place := ⟨session.key, session.machine, session.state⟩

/-- The form can hold every name of the place. -/
structure Place.HeldBy (place : Place) (codec : Codec) : Prop where
  key : codec.Holds place.key
  machine : codec.Holds place.machine
  state : codec.Holds place.state

/-- Reads the names of a record, which stand before its context. -/
def header : Wire.Reader Place := do
  let _ ← Wire.uint32
  let _ ← Uuid.decode
  let key ← Wire.string
  let machine ← Wire.string
  let state ← Wire.string
  pure { key, machine, state }

variable [Encoded C]

omit [Encoded C] in
theorem addressable_version (session : Session C) : Wire.Addressable (Wire.ofUInt32 session.version) := by
  rw [Wire.Addressable, Wire.ofUInt32, Wire.length_littleEndian]
  decide

omit [Encoded C] in
theorem addressable_id (session : Session C) : Wire.Addressable session.id.encode := by
  rw [Wire.Addressable, Uuid.encode, Wire.ofLength, List.length_append, Wire.length_littleEndian,
    session.id.length_bytes]
  decide

theorem header_toBytes (held : session.place.HeldBy .binary) :
    ∃ rest, header session.toBytes = some (session.place, rest) := by
  obtain ⟨key, machine, state⟩ := held
  dsimp only [place] at key machine state
  simp only [toBytes, List.append_assoc, header]
  rw [(Wire.reads_uint32 _).bind_append session.addressable_version,
    (session.id.reads_decode).bind_append session.addressable_id,
    (Wire.reads_string _).bind_append (key rfl), (Wire.reads_string _).bind_append (machine rfl),
    (Wire.reads_string _).bind_append (state rfl)]
  exact ⟨_, rfl⟩

/-- The names are read before anything else is. -/
theorem header_of_ofBytes {bytes rest : Bytes} (read : ofBytes bytes = some (session, rest)) :
    ∃ rest, header bytes = some (session.place, rest) := by
  simp only [ofBytes, bind, StateT.bind, Option.bind_eq_some_iff, Prod.exists] at read
  obtain ⟨version, _, versionRead, id, _, idRead, key, _, keyRead, read⟩ := read
  obtain ⟨machine, _, machineRead, state, left, stateRead, later⟩ := read
  obtain ⟨context, _, -, created, _, -, updated, _, -, lifetime, _, -, made⟩ := later
  cases made
  refine ⟨left, ?_⟩
  simp only [header, bind, StateT.bind, versionRead, idRead, keyRead, machineRead, stateRead, Option.bind_some]
  rfl

theorem place_of_ofJson {d : Nat} (read : ofJson d session.toJson = some other) : other.place = session.place := by
  cases d with
  | zero => cases read
  | succ d =>
    rw [toJson, ofJson, Json.fields_record _ (by simp)] at read
    simp only [Json.Slot.required, Option.pure_def, Option.bind_eq_bind, Option.bind_some, Json.slotOf_self, ne_eq,
      String.reduceEq, not_false_eq_true, Json.slotOf_of_ne, Json.reads_text _ d, Option.bind_eq_some_iff,
      Option.ite_none_right_eq_some, Option.some.injEq] at read
    obtain ⟨_, -, _, -, _, ⟨-, key⟩, _, ⟨-, machine⟩, _, ⟨-, state⟩, _, -, _, -, _, -, _, -, rfl⟩ := read
    rw [place, place, key, machine, state]

theorem place_of_toJson_eq (same : session.toJson = other.toJson) : session.place = other.place := by
  simp only [toJson, Json.record, Json.str, List.map_cons, List.map_nil, Json.object.injEq, List.cons.injEq,
    Prod.mk.injEq, Json.string.injEq, Json.Literal.text.injEq] at same
  obtain ⟨-, -, ⟨-, key⟩, ⟨-, machine⟩, ⟨-, state⟩, -⟩ := same
  rw [place, place, key, machine, state]

theorem place_of_decode_json (decoded : decode .json (session.written .json) = .ok other) :
    other.place = session.place := by
  obtain ⟨read, -⟩ := checked_eq_ok_iff.1 decoded
  rw [written, Wire.utf8?_toUTF8, Option.bind_some, Json.Reader.ofText, Json.read_write] at read
  have taken : ofJson Json.nesting session.toJson = some other := read
  exact place_of_ofJson taken

theorem exists_of_decode_binary (decoded : decode .binary (session.written .binary) = .ok other) :
    ∃ rest, ofBytes session.toBytes = some (other, rest) := by
  have taken : checked (Wire.decode ofBytes session.toBytes) = .ok other := decoded
  obtain ⟨read, -⟩ := checked_eq_ok_iff.1 taken
  rw [Wire.decode, Option.map_eq_some_iff] at read
  obtain ⟨⟨_, rest⟩, read, rfl⟩ := read
  exact ⟨rest, read⟩

/-- Whatever a record is read as, it is at its place. -/
theorem place_of_decode (held : session.place.HeldBy codec)
    (decoded : decode codec (session.written codec) = .ok other) : other.place = session.place := by
  cases codec with
  | json => exact place_of_decode_json decoded
  | binary =>
    obtain ⟨_, read⟩ := exists_of_decode_binary decoded
    obtain ⟨_, there⟩ := header_of_ofBytes read
    obtain ⟨_, here⟩ := header_toBytes held
    rw [here] at there
    exact (Prod.mk.inj (Option.some.inj there)).1.symm

/-- Reads the key of a record, which is the first of its names. -/
def keyHeader : Wire.Reader String := do
  let _ ← Wire.uint32
  let _ ← Uuid.decode
  Wire.string

/-- Whatever a record is read as, it has its key, even if the form cannot hold its other names. -/
theorem key_of_decode (held : codec.Holds session.key)
    (decoded : decode codec (session.written codec) = .ok other) : other.key = session.key := by
  cases codec with
  | json => exact congrArg Place.key (place_of_decode_json decoded)
  | binary =>
    obtain ⟨_, read⟩ := exists_of_decode_binary decoded
    have first : ∃ rest, keyHeader session.toBytes = some (session.key, rest) := by
      simp only [toBytes, List.append_assoc, keyHeader]
      rw [(Wire.reads_uint32 _).bind_append session.addressable_version,
        (session.id.reads_decode).bind_append session.addressable_id]
      exact ⟨_, Wire.reads_string _ (held rfl) _⟩
    simp only [ofBytes, bind, StateT.bind, Option.bind_eq_some_iff, Prod.exists] at read
    obtain ⟨version, _, versionRead, id, _, idRead, key, left, keyRead, _, _, -, _, _, -, later⟩ := read
    obtain ⟨context, _, -, created, _, -, updated, _, -, lifetime, _, -, made⟩ := later
    cases made
    have there : keyHeader session.toBytes = some (key, left) := by
      simp only [keyHeader, bind, StateT.bind, versionRead, idRead, Option.bind_some]
      exact keyRead
    obtain ⟨_, here⟩ := first
    rw [there] at here
    exact (Prod.mk.inj (Option.some.inj here)).1

/-- Records at different places are written differently. -/
theorem place_of_written_eq (held : session.place.HeldBy codec) (heldOther : other.place.HeldBy codec)
    (same : session.written codec = other.written codec) : session.place = other.place := by
  cases codec with
  | json =>
    have texts := congrArg Wire.utf8? same
    rw [written, written, Wire.utf8?_toUTF8, Wire.utf8?_toUTF8] at texts
    have values := congrArg Json.read (Option.some.inj texts)
    rw [Json.read_write, Json.read_write] at values
    exact place_of_toJson_eq (Option.some.inj values)
  | binary =>
    obtain ⟨_, here⟩ := header_toBytes held
    obtain ⟨_, there⟩ := header_toBytes heldOther
    rw [show session.toBytes = other.toBytes from same, there] at here
    exact (Prod.mk.inj (Option.some.inj here)).1.symm

end Session

end DialMenu
