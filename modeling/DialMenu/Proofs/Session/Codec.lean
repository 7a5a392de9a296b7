import DialMenu.Proofs.Json.Text
import DialMenu.Proofs.Menus.Encoding
import DialMenu.Proofs.Rehearsal.Notebook
import DialMenu.Session.Codec

/-!
Stored records are read back: in JSON as long as the text is not nested too deeply, in binary whatever follows
the record. Their timestamps are read back as their written form names them, which is exactly unless one is a leap
second in the middle of a minute. A record of another version is refused by its version.
-/

namespace DialMenu.Session

variable {C : Type} {session : Session C}

/-- No timestamp is a leap second in the middle of a minute. -/
structure Regular (session : Session C) : Prop where
  createdAt : session.createdAt.Regular
  updatedAt : session.updatedAt.Regular

/-- The record with the timestamps that their written form names. -/
def settled (session : Session C) : Session C :=
  { session with createdAt := session.createdAt.settled, updatedAt := session.updatedAt.settled }

theorem settled_eq_iff : session.settled = session ↔ session.Regular := by
  constructor
  · intro same
    exact ⟨Instant.settled_eq_iff.1 (congrArg createdAt same), Instant.settled_eq_iff.1 (congrArg updatedAt same)⟩
  · rintro ⟨created, updated⟩
    rw [settled, Instant.settled_eq_iff.2 created, Instant.settled_eq_iff.2 updated]

/-- The record is one that an operation can come by: of the current version, with timestamps as they are written. -/
structure Current (session : Session C) : Prop where
  version : session.version = currentVersion
  regular : session.Regular

theorem current_fresh (stamp : Stamp) (key machine state : String) (context : C) (lifetime : Duration) :
    (fresh stamp key machine state context lifetime).Current := ⟨rfl, stamp.regular, stamp.regular⟩

theorem Current.advanced (current : session.Current) (stamp : Stamp) (state : String) (context : C)
    (lifetime : Duration) : (session.advanced stamp.now state context lifetime).Current :=
  ⟨current.version, current.regular.createdAt, stamp.regular⟩

theorem checked_eq_ok_iff {read : Option (Session C)} :
    checked read = .ok session ↔ read = some session ∧ session.version = currentVersion := by
  unfold checked
  constructor
  · intro taken
    split at taken
    · cases taken
    · split at taken
      · rename_i current
        cases taken
        exact ⟨rfl, current⟩
      · cases taken
  · rintro ⟨rfl, current⟩
    exact if_pos current

variable [Encoded C]

theorem regular_of_ofJson {d : Nat} {j : Json} (taken : ofJson d j = some session) : session.Regular := by
  cases d with
  | zero => cases taken
  | succ d =>
    simp only [ofJson, Option.bind_eq_bind, Option.bind_eq_some_iff, Option.pure_def, Option.some_inj] at taken
    obtain ⟨_, -, _, -, _, -, _, -, _, -, _, -, _, -, _, created, _, updated, _, -, rfl⟩ := taken
    obtain ⟨_, createdRead⟩ := Json.Slot.exists_of_required created
    obtain ⟨_, updatedRead⟩ := Json.Slot.exists_of_required updated
    exact ⟨Instant.regular_of_ofJson createdRead, Instant.regular_of_ofJson updatedRead⟩

theorem regular_of_ofBytes {bytes rest : Bytes} (taken : ofBytes bytes = some (session, rest)) : session.Regular := by
  simp only [ofBytes, bind, StateT.bind, Option.bind_eq_some_iff, Prod.exists] at taken
  obtain ⟨_, _, -, _, _, -, _, _, -, _, _, -, _, _, -, _, _, -, taken⟩ := taken
  obtain ⟨created, _, createdRead, updated, _, updatedRead, _, _, -, made⟩ := taken
  cases made
  exact ⟨Instant.regular_of_decode createdRead, Instant.regular_of_decode updatedRead⟩

/-- Only such records are read. -/
theorem current_of_decode {codec : Codec} {bytes : Bytes} (decoded : decode codec bytes = .ok session) :
    session.Current := by
  cases codec with
  | json =>
    obtain ⟨taken, version⟩ := checked_eq_ok_iff.1 decoded
    obtain ⟨s, -, taken⟩ := Option.bind_eq_some_iff.1 taken
    obtain ⟨j, -, taken⟩ := Option.bind_eq_some_iff.1 taken
    exact ⟨version, regular_of_ofJson taken⟩
  | binary =>
    obtain ⟨taken, version⟩ := checked_eq_ok_iff.1 decoded
    rw [Wire.decode, Option.map_eq_some_iff] at taken
    obtain ⟨⟨_, rest⟩, taken, rfl⟩ := taken
    exact ⟨version, regular_of_ofBytes taken⟩

theorem reads_ofJson (context : Encoded.Faithful session.context) :
    Json.Reads ofJson session.toJson session.settled := by
  intro d
  cases d with
  | zero => rfl
  | succ d =>
    rw [toJson, ofJson, Json.fields_record _ (by simp)]
    simp [Json.Slot.required, Json.reads_uint32 _ d, Uuid.reads_ofJson _ d, Json.reads_text _ d, context.json d,
      Instant.reads_ofJson _ d, Json.reads_uint64 _ d, Json.bind_guard, Json.guard_guard, settled]

theorem reads_ofBytes (context : Encoded.Faithful session.context) :
    Wire.Reads ofBytes session.toBytes session.settled := by
  simp only [toBytes, List.append_assoc]
  exact (Wire.reads_uint32 _).bind (session.id.reads_decode.bind ((Wire.reads_string _).bind
    ((Wire.reads_string _).bind ((Wire.reads_string _).bind (context.binary.bind (session.createdAt.reads_decode.bind
      (session.updatedAt.reads_decode.bind (Wire.reads_uint64 _).last)))))))

/-- Only the context can be nested. -/
theorem depth_toJson_le {d : Nat} : session.toJson.depth ≤ d + 1 ↔ (Encoded.toJson session.context).depth ≤ d := by
  simp [toJson, Uuid.toJson, Instant.toJson, Json.str, Json.depth]

/-- Besides its names and its context a record takes less than 512 bytes. -/
theorem length_toBytes_le : session.toBytes.length ≤ (Encoded.encode session.context).length +
    session.key.toUTF8.size + session.machine.toUTF8.size + session.state.toUTF8.size + 512 := by
  have created := session.createdAt.length_encode_le
  have updated := session.updatedAt.length_encode_le
  have id : session.id.encode.length = 24 := by
    rw [Uuid.encode, Wire.ofLength, List.length_append, Wire.length_littleEndian, session.id.length_bytes]
  have version : (Wire.ofUInt32 session.version).length = 4 := Wire.length_littleEndian 4 _
  have lifetime : (Wire.ofUInt64 session.lifetime).length = 8 := Wire.length_littleEndian 8 _
  simp only [toBytes, List.length_append, Wire.length_ofString, id, version, lifetime]
  omega

/-- What reading a complete record answers. -/
def answer (session : Session C) : Except SessionError (Session C) :=
  if session.version = currentVersion then .ok session
  else .error (.unsupportedVersion session.version currentVersion)

theorem decode_json (context : Encoded.Faithful session.context) : decode .json (session.written .json) =
    if session.toJson.depth ≤ Json.nesting then session.settled.answer else .error .undecodable := by
  have text : (Wire.utf8? (session.written .json)).bind (Json.Reader.ofText ofJson) =
      if session.toJson.depth ≤ Json.nesting then some session.settled else none := by
    rw [written, Wire.utf8?_toUTF8, Option.bind_some, Json.Reader.ofText, Json.read_write]
    exact reads_ofJson context Json.nesting
  rw [decode, text]
  split <;> rfl

theorem decode_binary (context : Encoded.Faithful session.context) (fits : Wire.Addressable (session.written .binary))
    (rest : Bytes) : decode .binary (session.written .binary ++ rest) = session.settled.answer := by
  rw [decode, written, (reads_ofBytes context).decode fits]
  rfl

/-- Both forms of the record can be written and are read back, exactly if no timestamp is a leap second in the middle
of a minute. A text may have 127 arrays and objects around a value, as the 128th is refused; a record in binary has to
fit the address space, since it contains lengths. -/
structure ReadBack (session : Session C) : Prop where
  json : ∃ bytes, session.encode .json = .ok bytes ∧
    (session.toJson.depth ≤ Json.nesting → decode .json bytes = session.settled.answer) ∧
    (Json.nesting < session.toJson.depth → decode .json bytes = (.error .undecodable : Except _ (Session C)))
  binary : ∃ bytes, session.encode .binary = .ok bytes ∧
    (Wire.Addressable bytes → ∀ rest, decode .binary (bytes ++ rest) = session.settled.answer)
  exact : session.settled = session ↔ session.Regular

namespace ReadBack

variable (back : session.ReadBack)

include back

theorem json_answer (shallow : session.toJson.depth ≤ Json.nesting) :
    (session.encode .json >>= decode .json) = session.settled.answer := by
  obtain ⟨bytes, encoded, read, -⟩ := back.json
  rw [encoded]
  exact read shallow

theorem json_undecodable (deep : Json.nesting < session.toJson.depth) :
    (session.encode .json >>= decode .json) = (.error .undecodable : Except _ (Session C)) := by
  obtain ⟨bytes, encoded, -, refused⟩ := back.json
  rw [encoded]
  exact refused deep

theorem binary_answer (fits : Wire.Addressable (session.written .binary)) (rest : Bytes) :
    (session.encode .binary >>= fun bytes => decode .binary (bytes ++ rest)) = session.settled.answer := by
  obtain ⟨bytes, encoded, read⟩ := back.binary
  have whole : session.written .binary = bytes := Except.ok.inj encoded
  rw [encoded]
  exact read (whole ▸ fits) rest

end ReadBack

theorem readBack_of_faithful (context : Encoded.Faithful session.context) : session.ReadBack where
  json := ⟨_, rfl, fun shallow => (decode_json context).trans (if_pos shallow),
    fun deep => (decode_json context).trans (if_neg (Nat.not_le_of_lt deep))⟩
  binary := ⟨_, rfl, decode_binary context⟩
  exact := settled_eq_iff

/-- Every record of the menus, and every record of a rehearsal, is read back in both forms. -/
theorem readBack : (∀ session : Session Menus.Subscriber, session.context.Canonical → session.ReadBack) ∧
    ∀ session : Session Rehearsal.Notebook, session.context.Canonical → session.ReadBack :=
  ⟨fun _ canonical => readBack_of_faithful (Menus.Subscriber.faithful canonical),
    fun _ canonical => readBack_of_faithful (Rehearsal.Notebook.faithful canonical)⟩

/-- A record of the menus with a value in a map in a list, at the end of a minute with a leap second. -/
def nestedRecord : Session Menus.Subscriber where
  version := currentVersion
  id := .ofNat 7
  key := "ussd:session:é\n"
  machine := "profile"
  state := "edit"
  context := { pending := { extra := ⟨[("a", .list [.map [("b", .int (-1)), ("c", .null)], .text "\""])], by decide⟩ } }
  createdAt := ⟨1483228799, 1500000000, by decide, by decide⟩
  updatedAt := ⟨-62198755200, 1, by decide, by decide⟩
  lifetime := 18446744073709551615

/-- A record of a rehearsal that another version of the program wrote. -/
def foreignRecord : Session Rehearsal.Notebook where
  version := 2
  id := .ofNat 8
  key := ""
  machine := "main"
  state := "start"
  context := { notes := ["1"], data := ⟨[("deep", .list [.list [.bool true]])], by decide⟩ }
  createdAt := .epoch
  updatedAt := .latest
  lifetime := 0

theorem readBack_examples :
    (nestedRecord.encode .json >>= decode .json) = .ok nestedRecord ∧
      (nestedRecord.encode .binary >>= fun bytes => decode .binary (bytes ++ [1, 2, 3])) = .ok nestedRecord ∧
      (foreignRecord.encode .json >>= decode .json) =
        (.error (.unsupportedVersion 2 1) : Except _ (Session Rehearsal.Notebook)) ∧
      (foreignRecord.encode .binary >>= fun bytes => decode .binary (bytes ++ [4])) =
        (.error (.unsupportedVersion 2 1) : Except _ (Session Rehearsal.Notebook)) := by
  have nestedCanonical : nestedRecord.context.Canonical := by
    simp only [Menus.Subscriber.Canonical, Value.CanonicalTable, nestedRecord, List.mem_singleton, forall_eq,
      Value.Canonical, Value.CanonicalItems, Value.CanonicalEntries, and_true]
    decide
  have foreignCanonical : foreignRecord.context.Canonical := by
    simp [Rehearsal.Notebook.Canonical, Value.CanonicalTable, foreignRecord, Value.Canonical, Value.CanonicalItems]
  have nestedFits : Wire.Addressable (nestedRecord.written .binary) := by
    change (nestedRecord.written .binary).length < 18446744073709551616
    decide +kernel
  have foreignFits : Wire.Addressable (foreignRecord.written .binary) := by
    change (foreignRecord.written .binary).length < 18446744073709551616
    decide +kernel
  have nested := readBack.1 nestedRecord nestedCanonical
  have foreign := readBack.2 foreignRecord foreignCanonical
  have same := nested.exact.2 ⟨by decide, by decide⟩
  refine ⟨(nested.json_answer ?_).trans ?_, (nested.binary_answer nestedFits _).trans ?_,
    foreign.json_answer ?_, foreign.binary_answer foreignFits _⟩
  · decide
  · rw [same]
    rfl
  · rw [same]
    rfl
  · decide

/-- `true` within that many lists. -/
def boxed : Nat → Value
  | 0 => .bool true
  | lists + 1 => .list [boxed lists]

theorem canonical_boxed (lists : Nat) : (boxed lists).Canonical := by
  induction lists with
  | zero => trivial
  | succ lists ih => exact ⟨ih, trivial⟩

/-- A list takes an object that names its kind, and an array. -/
theorem depth_boxed (lists : Nat) : (boxed lists).toJson.depth = 2 * lists + 1 := by
  induction lists with
  | zero => rfl
  | succ lists ih =>
    simp only [boxed, Value.toJson, Value.itemsToJson, Json.record, List.map_cons, List.map_nil, Json.depth,
      Json.depthMembers, Json.depthItems, ih]
    omega

/-- A record with a value within that many lists. -/
def boxedRecord (lists : Nat) : Session Rehearsal.Notebook where
  version := currentVersion
  id := .ofNat 9
  key := ""
  machine := "main"
  state := "start"
  context := { data := ⟨[("deep", boxed lists)], List.pairwise_singleton _ _⟩ }
  createdAt := .epoch
  updatedAt := .epoch
  lifetime := 0

theorem faithful_boxedRecord (lists : Nat) : Encoded.Faithful (boxedRecord lists).context := by
  refine Rehearsal.Notebook.faithful fun entry mem => ?_
  cases List.mem_singleton.1 mem
  exact canonical_boxed lists

theorem depth_boxedRecord (lists : Nat) : (boxedRecord lists).toJson.depth = 2 * lists + 4 := by
  simp only [boxedRecord, toJson, Encoded.toJson, Rehearsal.Notebook.toJson, Uuid.toJson, Instant.toJson, Json.ofOption,
    Json.ofList, Json.ofEntries, Json.record, Json.str, List.map_cons, List.map_nil, Json.depth, Json.depthMembers,
    Json.depthItems, depth_boxed]
  omega

/-- A record that was made in a leap second in the middle of a minute. -/
def lateRecord : Session Menus.Subscriber where
  version := currentVersion
  id := .ofNat 10
  key := ""
  machine := "main"
  state := "start"
  context := {}
  createdAt := ⟨1, 1500000000, by decide, by decide⟩
  updatedAt := .epoch
  lifetime := 0

theorem settled_lateRecord :
    lateRecord.settled = { lateRecord with createdAt := ⟨2, 500000000, by decide, by decide⟩ } := by
  decide

/-- Not every record is read back as it was: a text of 128 levels is refused, and a leap second in the middle of a
minute is read as the second after it. -/
theorem not_readBack_exactly :
    (boxedRecord 62).version = currentVersion ∧ (boxedRecord 62).toJson.depth = 128 ∧
      ((boxedRecord 62).encode .json >>= decode .json) =
        (.error .undecodable : Except _ (Session Rehearsal.Notebook)) ∧
      lateRecord.version = currentVersion ∧ lateRecord.toJson.depth = 4 ∧
      ∀ codec, (lateRecord.encode codec >>= decode codec) =
          .ok { lateRecord with createdAt := ⟨2, 500000000, by decide, by decide⟩ } ∧
        (lateRecord.encode codec >>= decode codec) ≠ .ok lateRecord := by
  have deep : Json.nesting < (boxedRecord 62).toJson.depth := by
    rw [depth_boxedRecord]
    decide
  have boxedBack := readBack_of_faithful (faithful_boxedRecord 62)
  have lateBack : lateRecord.ReadBack := readBack_of_faithful (Menus.Subscriber.faithful nofun)
  have fits : Wire.Addressable (lateRecord.written .binary) := by
    change (lateRecord.written .binary).length < 18446744073709551616
    decide +kernel
  have late (codec : Codec) : (lateRecord.encode codec >>= decode codec) = lateRecord.settled.answer := by
    cases codec with
    | json => exact lateBack.json_answer (by decide)
    | binary => simpa using lateBack.binary_answer fits []
  refine ⟨rfl, depth_boxedRecord 62, boxedBack.json_undecodable deep, rfl, by decide, fun codec => ?_⟩
  rw [late codec, settled_lateRecord]
  refine ⟨rfl, fun same => ?_⟩
  have moved := congrArg createdAt (Except.ok.inj same)
  exact absurd moved (by decide)

end DialMenu.Session
