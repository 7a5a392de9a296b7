import DialMenu.Json.Reading

/-!
Readers of typed values take back what the writers wrote, as soon as they may enter every array and object of
it. A reader that may enter fewer refuses.
-/

namespace DialMenu.Json

variable {α κ : Type}

/-- The reader takes the value for `a` if and only if it may go as deep as the value is. -/
def Reads (reader : Reader α) (j : Json) (a : α) : Prop :=
  ∀ d, reader d j = if j.depth ≤ d then some a else none

theorem reads_text (s : String) : Reads text (str s) s := fun _ => rfl

theorem reads_boolean (b : Bool) : Reads boolean (bool b) b := fun _ => rfl

theorem reads_integerBetween {low high n : Int} (range : low ≤ n ∧ n ≤ high) :
    Reads (integerBetween low high) (integer n) n := fun _ => if_pos range

theorem Reads.map {β : Type} {reader : Reader α} {j : Json} {a : α} (read : Reads reader j a) (f : α → β) :
    Reads (fun d j => (reader d j).map f) j (f a) := by
  intro d
  dsimp only
  rw [read d]
  split <;> rfl

theorem reads_int64 (n : Int64) : Reads int64 (integer n.toInt) n := by
  have low := n.le_toInt
  have high := n.toInt_lt
  have range : -9223372036854775808 ≤ n.toInt ∧ n.toInt ≤ 9223372036854775807 := by omega
  have read : Reads int64 (integer n.toInt) (Int64.ofInt n.toInt) := (reads_integerBetween range).map Int64.ofInt
  rwa [Int64.ofInt_toInt] at read

theorem reads_uint64 (n : UInt64) : Reads uint64 (integer n.toNat) n := by
  have bound := n.toNat_lt
  have range : (0 : Int) ≤ n.toNat ∧ (n.toNat : Int) ≤ 18446744073709551615 := by omega
  have read := (reads_integerBetween range).map fun n => UInt64.ofNat n.toNat
  rwa [Int.toNat_natCast, UInt64.ofNat_toNat] at read

theorem reads_uint32 (n : UInt32) : Reads uint32 (integer n.toNat) n := by
  have bound := n.toNat_lt
  have range : (0 : Int) ≤ n.toNat ∧ (n.toNat : Int) ≤ 4294967295 := by omega
  have read := (reads_integerBetween range).map fun n => UInt32.ofNat n.toNat
  rwa [Int.toNat_natCast, UInt32.ofNat_toNat] at read

theorem reads_named {ofName : String → Option α} {name : String} {a : α} (known : ofName name = some a) :
    Reads (named ofName) (str name) a := fun _ => known

theorem reads_nullable {reader : Reader α} (write : α → Json) (value : Option α) (noNull : ∀ a, write a ≠ null)
    (inside : ∀ a, value = some a → Reads reader (write a) a) :
    Reads (nullable reader) (ofOption write value) value := by
  intro d
  cases value with
  | none => rfl
  | some a =>
    have read := inside a rfl d
    rw [ofOption, nullable]
    · rw [read]
      split <;> rfl
    · exact noNull a

/-- Parts that are read back one by one, each within its own depth, are read back together within the greatest. -/
theorem mapM_within {β : Type} {read : β → Option α} {write : α → β} (depthOf : β → Nat) {deepest : List β → Nat}
    (empty : deepest [] = 0) (more : ∀ part parts, deepest (part :: parts) = max (depthOf part) (deepest parts))
    {values : List α} {d : Nat}
    (each : ∀ a ∈ values, read (write a) = if depthOf (write a) ≤ d then some a else none) :
    (values.map write).mapM read = if deepest (values.map write) ≤ d then some values else none := by
  induction values with
  | nil =>
    rw [List.map_nil, empty, if_pos (Nat.zero_le d)]
    rfl
  | cons a values ih =>
    have others := ih fun other mem => each other (List.mem_cons_of_mem a mem)
    rw [List.map_cons, List.mapM_cons, each a List.mem_cons_self, others, more]
    by_cases first : depthOf (write a) ≤ d
    · by_cases rest : deepest (values.map write) ≤ d
      · rw [if_pos first, if_pos rest, if_pos (Nat.max_le.2 ⟨first, rest⟩)]
        rfl
      · rw [if_pos first, if_neg rest, if_neg fun all => rest (Nat.max_le.1 all).2]
        rfl
    · rw [if_neg first, if_neg fun all => first (Nat.max_le.1 all).1]
      rfl

/-- Items that are read back one by one are read back together. -/
theorem mapM_reads {reader : Reader α} {write : α → Json} {items : List α}
    (inside : ∀ item ∈ items, Reads reader (write item) item) (d : Nat) :
    (items.map write).mapM (reader d) = if depthItems (items.map write) ≤ d then some items else none :=
  mapM_within depth (by rw [depthItems]) (fun _ _ => by rw [depthItems]) fun item mem => inside item mem d

theorem reads_list {reader : Reader α} {write : α → Json} {items : List α}
    (inside : ∀ item ∈ items, Reads reader (write item) item) : Reads (list reader) (ofList write items) items := by
  intro d
  cases d with
  | zero => rfl
  | succ d =>
    rw [ofList, list, mapM_reads inside, depth]
    simp only [Nat.add_le_add_iff_right]

theorem reads_texts (texts : List String) : Reads (list text) (ofList str texts) texts :=
  reads_list fun s _ => reads_text s

/-- Entries that are read back one by one are read back together. -/
theorem mapM_entry {key : String → Option κ} {name : κ → String} {reader : Reader α} {write : α → Json}
    {entries : List (κ × α)} (known : ∀ e ∈ entries, key (name e.1) = some e.1)
    (inside : ∀ e ∈ entries, Reads reader (write e.2) e.2) (d : Nat) :
    (entries.map fun e => (Literal.text (name e.1), write e.2)).mapM (entry key (reader d)) =
      if depthMembers (entries.map fun e => (Literal.text (name e.1), write e.2)) ≤ d then some entries else none := by
  refine mapM_within (fun member => member.2.depth) (by rw [depthMembers]) (fun member members => ?_) fun e mem => ?_
  · obtain ⟨name, value⟩ := member
    rw [depthMembers]
  · rw [entry, known e mem, inside e mem d]
    split <;> rfl

theorem reads_table [Ord κ] [Std.TransOrd κ] [Std.LawfulEqOrd κ] {key : String → Option κ} {name : κ → String}
    {reader : Reader α} {write : α → Json} {table : Table κ α} (known : ∀ e ∈ table.entries, key (name e.1) = some e.1)
    (inside : ∀ e ∈ table.entries, Reads reader (write e.2) e.2) :
    Reads (Json.table key reader) (ofEntries name write table.entries) table := by
  intro d
  have members : ofEntries name write table.entries =
      object (table.entries.map fun e => (.text (name e.1), write e.2)) := by
    rw [ofEntries, record, List.map_map]
    rfl
  rw [members, depth]
  cases d with
  | zero => rfl
  | succ d =>
    rw [Json.table, mapM_entry known inside]
    simp only [Nat.add_le_add_iff_right]
    split <;> simp

section Fields

variable {name field : String} {j : Json} {members : List (String × Json)}

@[simp] theorem depth_record_nil_le (d : Nat) : (record []).depth ≤ d + 1 := Nat.le_add_left 1 d

@[simp] theorem depth_record_cons_le {d : Nat} :
    (record ((name, j) :: members)).depth ≤ d + 1 ↔ j.depth ≤ d ∧ (record members).depth ≤ d + 1 := by
  rw [record, record, List.map_cons, depth, depth, depthMembers]
  omega

/-- What an object that gives no field twice says about a field. -/
def slotOf (members : List (String × Json)) (field : String) : Slot :=
  match members.lookup field with
  | some value => .given value
  | none => .absent

@[simp] theorem slotOf_self : slotOf ((field, j) :: members) field = .given j := by
  simp [slotOf]

@[simp] theorem slotOf_of_ne (other : name ≠ field) : slotOf ((name, j) :: members) field = slotOf members field := by
  have differ : (field == name) = false := beq_eq_false_iff_ne.2 other.symm
  simp [slotOf, List.lookup_cons, differ]

theorem occurrences_cons : occurrences field (((name, j) :: members).map fun (name, value) => (.text name, value)) =
    if name = field then j :: occurrences field (members.map fun (name, value) => (.text name, value))
    else occurrences field (members.map fun (name, value) => (.text name, value)) := by
  by_cases here : name = field <;> simp [occurrences, here]

theorem occurrences_record (distinct : (members.map Prod.fst).Nodup) (field : String) :
    occurrences field (members.map fun (name, value) => (.text name, value)) = (members.lookup field).toList := by
  induction members with
  | nil => rfl
  | cons member members ih =>
    obtain ⟨name, value⟩ := member
    obtain ⟨fresh, distinctRest⟩ := List.nodup_cons.1 distinct
    rw [occurrences_cons, ih distinctRest]
    by_cases here : name = field
    · subst here
      have missing : members.lookup name = none := by
        rw [List.lookup_eq_none_iff]
        intro member mem
        refine bne_iff_ne.2 ?_
        intro same
        exact fresh (List.mem_map.2 ⟨member, mem, same.symm⟩)
      simp [missing]
    · have differ : (field == name) = false := beq_eq_false_iff_ne.2 (Ne.symm here)
      simp [List.lookup_cons, here, differ]

/-- An object that says about each of these fields what other members say is read as they are. -/
theorem fields_of_occurrences (names : List String) {kept : List (String × Json)} (once : ∀ name ∈ names,
      occurrences name (members.map fun (name, value) => (.text name, value)) = (kept.lookup name).toList) :
    ∃ slot, fields names (record members) = some slot ∧ ∀ field,
      occurrences field (members.map fun (name, value) => (.text name, value)) = (kept.lookup field).toList →
        slot field = slotOf kept field := by
  have paired : (members.map fun e => (Literal.text e.1, e.2)).all (fun e => e.1 ≠ .unpaired) = true := by simp
  have single : names.all (fun name =>
      (occurrences name (members.map fun (name, value) => (.text name, value))).length ≤ 1) = true := by
    refine List.all_eq_true.2 fun name mem => ?_
    rw [once name mem]
    cases kept.lookup name <;> rfl
  refine ⟨_, if_pos ⟨paired, single⟩, fun field here => ?_⟩
  dsimp only
  rw [here, slotOf]
  cases kept.lookup field <;> rfl

/-- A record that gives no field twice is read field by field. -/
theorem fields_record (names : List String) (distinct : (members.map Prod.fst).Nodup) :
    fields names (record members) = some (slotOf members) := by
  obtain ⟨slot, read, agrees⟩ := fields_of_occurrences names fun name _ => occurrences_record distinct name
  rw [read]
  exact congrArg some (funext fun field => agrees field (occurrences_record distinct field))

end Fields

section Slots

theorem Slot.exists_of_required {reader : Json → Option α} {slot : Slot} {a : α}
    (taken : slot.required reader = some a) : ∃ j, reader j = some a := by
  cases slot with
  | given j => exact ⟨j, taken⟩
  | absent => cases taken
  | past => cases taken

theorem bind_guard {β : Type} {p : Prop} [Decidable p] (a : α) (next : α → Option β) :
    (if p then some a else none).bind next = if p then next a else none := by
  split <;> rfl

theorem guard_guard {p q : Prop} [Decidable p] [Decidable q] (answer : Option α) :
    (if p then (if q then answer else none) else none) = if p ∧ q then answer else none := by
  by_cases outer : p <;> simp [outer]

/-- A field that may be null is read back. -/
theorem optional_ofOption {reader : Reader α} (write : α → Json) (value : Option α) (noNull : ∀ a, write a ≠ null)
    (inside : ∀ a, value = some a → Reads reader (write a) a) (d : Nat) :
    (Slot.given (ofOption write value)).optional (reader d) =
      if (ofOption write value).depth ≤ d then some value else none := by
  cases value with
  | none => rfl
  | some a =>
    have read := inside a rfl d
    rw [ofOption, Slot.optional]
    · rw [read]
      split <;> rfl
    · exact noNull a

theorem optional_text (s : Option String) (d : Nat) :
    (Slot.given (ofOption str s)).optional (text d) = if (ofOption str s).depth ≤ d then some s else none :=
  optional_ofOption str s nofun (fun s _ => reads_text s) d

end Slots

end DialMenu.Json
