import DialMenu.Wire
import Mathlib.Algebra.Group.Nat.Defs

/-!
The readers of the fixed-width binary encoding take back what the writers wrote, and leave what follows it.
Lengths are words of eight bytes, so whatever states its length has to be shorter than 2^64 bytes.
-/

namespace DialMenu.Wire

variable {α β κ : Type}

/-- The number of bytes fits a length. -/
def Addressable (bytes : Bytes) : Prop := bytes.length < 18446744073709551616

theorem Addressable.left {front back : Bytes} (fits : Addressable (front ++ back)) : Addressable front := by
  rw [Addressable, List.length_append] at fits
  rw [Addressable]
  omega

theorem Addressable.right {front back : Bytes} (fits : Addressable (front ++ back)) : Addressable back := by
  rw [Addressable, List.length_append] at fits
  rw [Addressable]
  omega

theorem length_le_of_mem_flatMap {write : α → Bytes} {items : List α} {item : α} (mem : item ∈ items) :
    (write item).length ≤ (items.flatMap write).length := by
  obtain ⟨before, after, rfl⟩ := List.append_of_mem mem
  simp only [List.flatMap_append, List.flatMap_cons, List.length_append]
  omega

/-- The reader takes exactly these bytes off the front for `a`, whatever follows them. -/
def Reads (reader : Reader α) (bytes : Bytes) (a : α) : Prop :=
  Addressable bytes → ∀ rest, reader (bytes ++ rest) = some (a, rest)

namespace Reads

variable {reader : Reader α} {bytes front back : Bytes} {a : α} {b : β}

theorem pure (a : α) : Reads (Pure.pure a) [] a := fun _ _ => rfl

theorem bind {next : α → Reader β} (first : Reads reader front a) (second : Reads (next a) back b) :
    Reads (reader >>= next) (front ++ back) b := by
  intro fits rest
  rw [List.append_assoc]
  change (reader (front ++ (back ++ rest)) >>= fun p => next p.1 p.2) = some (b, rest)
  rw [first fits.left]
  exact second fits.right rest

/-- The rest of the work takes no bytes. -/
theorem only {next : α → Reader β} (first : Reads reader bytes a) (second : Reads (next a) [] b) :
    Reads (reader >>= next) bytes b := by
  rw [← List.append_nil bytes]
  exact first.bind second

/-- The last reader of a record, after which nothing is left to read. -/
theorem last {make : α → β} (read : Reads reader bytes a) :
    Reads (reader >>= fun x => Pure.pure (make x)) bytes (make a) := read.only (pure (make a))

theorem map (make : α → β) (read : Reads reader bytes a) : Reads (make <$> reader) bytes (make a) := by
  intro fits rest
  change (reader (bytes ++ rest) >>= fun p => some (make p.1, p.2)) = some (make a, rest)
  rw [read fits]
  rfl

theorem decode (read : Reads reader bytes a) (fits : Addressable bytes) (rest : Bytes) :
    Wire.decode reader (bytes ++ rest) = some a := by
  rw [Wire.decode, read fits]
  rfl

end Reads

theorem length_littleEndian (width n : Nat) : (littleEndian width n).length = width := by
  induction width generalizing n with
  | zero => rfl
  | succ width ih => simp [littleEndian, ih]

theorem length_ofVariant (n : Nat) : (ofVariant n).length = 4 := length_littleEndian 4 n

theorem ofLittleEndian_littleEndian (width n : Nat) : ofLittleEndian (littleEndian width n) = n % 256 ^ width := by
  induction width generalizing n with
  | zero =>
    rw [Nat.pow_zero, Nat.mod_one]
    rfl
  | succ width ih =>
    have split : n % 256 ^ (width + 1) = n % 256 + 256 * (n / 256 % 256 ^ width) := by
      rw [Nat.pow_succ', Nat.mod_mul]
    rw [split, ← ih]
    simp [littleEndian, ofLittleEndian]

theorem take_append (bytes rest : Bytes) : take bytes.length (bytes ++ rest) = some (bytes, rest) := by
  simp [take]

theorem reads_take {bytes : Bytes} {n : Nat} (size : bytes.length = n) : Reads (take n) bytes bytes := by
  intro _ rest
  rw [← size, take_append]

theorem reads_word {width n : Nat} (small : n < 256 ^ width) : Reads (word width) (littleEndian width n) n := by
  have same : ofLittleEndian (littleEndian width n) = n := by
    rw [ofLittleEndian_littleEndian, Nat.mod_eq_of_lt small]
  have taken := (reads_take (length_littleEndian width n)).map ofLittleEndian
  rwa [same] at taken

theorem reads_uint32 (n : UInt32) : Reads uint32 (ofUInt32 n) n := by
  have read : Reads uint32 (ofUInt32 n) (UInt32.ofNat n.toNat) := (reads_word n.toNat_lt).map UInt32.ofNat
  rwa [UInt32.ofNat_toNat] at read

theorem reads_uint64 (n : UInt64) : Reads uint64 (ofUInt64 n) n := by
  have read : Reads uint64 (ofUInt64 n) (UInt64.ofNat n.toNat) := (reads_word n.toNat_lt).map UInt64.ofNat
  rwa [UInt64.ofNat_toNat] at read

theorem reads_int64 (n : Int64) : Reads int64 (ofInt64 n) n := by
  have read := (reads_uint64 n.toUInt64).map UInt64.toInt64
  rwa [Int64.toInt64_toUInt64] at read

theorem reads_length {n : Nat} (small : n < 18446744073709551616) : Reads length (ofLength n) n := reads_word small

theorem reads_variant {n : Nat} (small : n < 4294967296) : Reads variant (ofVariant n) n := reads_word small

theorem reads_flag (b : Bool) : Reads flag (ofFlag b) b := by
  intro _ rest
  cases b <;> rfl

/-- A value is found again at its place. -/
theorem reads_oneOf {values : List α} {n : Nat} {a : α} (small : n < 4294967296) (placed : values[n]? = some a) :
    Reads (oneOf values) (ofVariant n) a := by
  rw [oneOf]
  refine (reads_variant small).only ?_
  rw [placed]
  exact .pure a

/-- The value, if there is one, is read back. -/
theorem reads_option {reader : Reader α} {write : α → Bytes} {value : Option α}
    (inside : ∀ a, value = some a → Reads reader (write a) a) : Reads (option reader) (ofOption write value) value := by
  cases value with
  | none =>
    rw [option]
    exact (reads_flag false).only (.pure none)
  | some a =>
    rw [option]
    exact (reads_flag true).bind ((inside a rfl).map some)

/-- Items that are read back one by one are read back in a row. -/
theorem reads_items {reader : Reader α} {write : α → Bytes} {items : List α}
    (inside : ∀ item ∈ items, Reads reader (write item) item) :
    Reads (Wire.items reader items.length) (items.flatMap write) items := by
  induction items with
  | nil => exact .pure []
  | cons item items ih =>
    have others := ih fun other mem => inside other (List.mem_cons_of_mem _ mem)
    exact (inside item List.mem_cons_self).bind others.last

theorem length_le_length_flatMap {write : α → Bytes} (items : List α)
    (taking : ∀ item ∈ items, 0 < (write item).length) : items.length ≤ (items.flatMap write).length := by
  induction items with
  | nil => exact Nat.le_refl 0
  | cons item items ih =>
    have others := ih fun other mem => taking other (List.mem_cons_of_mem _ mem)
    have first := taking item List.mem_cons_self
    rw [List.flatMap_cons, List.length_append, List.length_cons]
    omega

/-- A list of items that take at least one byte each is read back. -/
theorem reads_list {reader : Reader α} {write : α → Bytes} {items : List α}
    (taking : ∀ item ∈ items, 0 < (write item).length)
    (inside : ∀ item ∈ items, Reads reader (write item) item) : Reads (list reader) (ofList write items) items := by
  intro fits
  have count : items.length < 18446744073709551616 :=
    Nat.lt_of_le_of_lt (length_le_length_flatMap items taking) fits.right
  exact (reads_length count).bind (reads_items inside) fits

theorem toList_loop (bytes : ByteArray) (i : Nat) (done : List UInt8) :
    ByteArray.toList.loop bytes i done = done.reverse ++ bytes.data.toList.drop i := by
  have size : bytes.size = bytes.data.toList.length := rfl
  fun_induction ByteArray.toList.loop bytes i done with
  | case1 i done inside ih =>
    have here : bytes.get! i = bytes.data.toList[i] := by
      change bytes.data[i]! = _
      rw [getElem!_pos bytes.data i inside, Array.getElem_toList]
    have split : bytes.data.toList.drop i = bytes.data.toList[i] :: bytes.data.toList.drop (i + 1) :=
      List.drop_eq_getElem_cons (size ▸ inside)
    rw [ih, split, here]
    simp
  | case2 i done outside =>
    rw [List.drop_eq_nil_of_le (by omega), List.append_nil]

theorem toList_eq (bytes : ByteArray) : bytes.toList = bytes.data.toList := by
  rw [ByteArray.toList, toList_loop]
  rfl

/-- Every string is read back from its UTF-8 form. -/
theorem utf8?_toUTF8 (s : String) : utf8? s.toUTF8.toList = some s := by
  have bytes : s.toUTF8.toList.toByteArray = s.toUTF8 := by
    rw [toList_eq]
    exact ByteArray.ext (Array.toList_inj.1 List.toList_data_toByteArray)
  rw [utf8?, bytes, String.fromUTF8?]
  exact dif_pos s.isValidUTF8

theorem length_toList (bytes : ByteArray) : bytes.toList.length = bytes.size := by
  rw [toList_eq]
  rfl

theorem length_ofString_pos (s : String) : 0 < (ofString s).length := by
  rw [ofString, ofLength, List.length_append, length_littleEndian]
  omega

theorem length_ofString (s : String) : (ofString s).length = 8 + s.toUTF8.size := by
  rw [ofString, ofLength, List.length_append, length_littleEndian, length_toList]

/-- A character takes at most four bytes. -/
theorem size_toUTF8_ofList_le (cs : List Char) : (String.ofList cs).toUTF8.size ≤ 4 * cs.length := by
  have each (c : Char) : (String.utf8EncodeChar c).length ≤ 4 := by
    unfold String.utf8EncodeChar
    dsimp only
    split
    · exact Nat.le_of_ble_eq_true rfl
    split
    · exact Nat.le_of_ble_eq_true rfl
    split <;> exact Nat.le_of_ble_eq_true rfl
  have all : (cs.flatMap String.utf8EncodeChar).length ≤ 4 * cs.length := by
    induction cs with
    | nil => exact Nat.le_refl 0
    | cons c cs ih =>
      have first := each c
      rw [List.flatMap_cons, List.length_append, List.length_cons]
      omega
  rw [String.toUTF8_eq_toByteArray, String.toByteArray_ofList, List.utf8Encode]
  change (List.toByteArray _).data.toList.length ≤ _
  rwa [List.toList_data_toByteArray]

theorem reads_string (s : String) : Reads string (ofString s) s := by
  intro fits
  have size : s.toUTF8.toList.length = s.toUTF8.size := length_toList _
  have small : s.toUTF8.size < 18446744073709551616 := size ▸ fits.right
  refine (reads_length small).bind ((reads_take size).only ?_) fits
  rw [utf8?_toUTF8]
  exact .pure s

theorem reads_optionalString (s : Option String) : Reads (option string) (ofOption ofString s) s :=
  reads_option fun s _ => reads_string s

theorem reads_strings (texts : List String) : Reads (list string) (ofList ofString texts) texts :=
  reads_list (fun s _ => length_ofString_pos s) fun s _ => reads_string s

theorem length_ofEntry_pos {write : α → Bytes} (e : String × α) : 0 < (ofEntry ofString write e).length := by
  have name := length_ofString_pos e.1
  rw [ofEntry, List.length_append]
  omega

theorem reads_entry {key : Reader κ} {reader : Reader α} {writeKey : κ → Bytes} {write : α → Bytes} {e : κ × α}
    (name : Reads key (writeKey e.1) e.1) (value : Reads reader (write e.2) e.2) :
    Reads (entry key reader) (ofEntry writeKey write e) e :=
  name.bind value.last

/-- The entries of an ordered map are read back as they are. -/
theorem reads_table [Ord κ] [Std.TransOrd κ] [Std.LawfulEqOrd κ] {key : Reader κ} {reader : Reader α}
    {write : κ × α → Bytes} {table : Table κ α}
    (inside : Reads (list (entry key reader)) (ofList write table.entries) table.entries) :
    Reads (Wire.table key reader) (ofList write table.entries) table := by
  have read := inside.map Table.ofList
  rwa [Table.ofList_entries] at read

end DialMenu.Wire
