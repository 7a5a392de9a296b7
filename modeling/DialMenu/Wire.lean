import DialMenu.Table

/-!
Fixed-width binary encoding: little-endian words, lengths of eight bytes, variants of four, one byte for a
flag. Each reader takes its value off the front of the bytes and leaves the rest.
-/

namespace DialMenu

abbrev Bytes := List UInt8

namespace Wire

/-- Reads a value off the front of the bytes. -/
abbrev Reader (α : Type) := StateT Bytes Option α

variable {α : Type}

/-- The `width` low bytes of `n`, the lowest first. -/
def littleEndian : Nat → Nat → Bytes
  | 0, _ => []
  | width + 1, n => UInt8.ofNat n :: littleEndian width (n / 256)

def ofLittleEndian (bytes : Bytes) : Nat := bytes.foldr (fun b n => b.toNat + 256 * n) 0

/-- The next `n` bytes. -/
def take (n : Nat) : Reader Bytes := fun bytes =>
  if n ≤ bytes.length then some (bytes.take n, bytes.drop n) else none

/-- An unsigned word of `width` bytes. -/
def word (width : Nat) : Reader Nat := ofLittleEndian <$> take width

def ofUInt32 (n : UInt32) : Bytes := littleEndian 4 n.toNat

def uint32 : Reader UInt32 := UInt32.ofNat <$> word 4

def ofUInt64 (n : UInt64) : Bytes := littleEndian 8 n.toNat

def uint64 : Reader UInt64 := UInt64.ofNat <$> word 8

/-- Negative numbers in two's complement. -/
def ofInt64 (n : Int64) : Bytes := ofUInt64 n.toUInt64

def int64 : Reader Int64 := UInt64.toInt64 <$> uint64

def ofLength (n : Nat) : Bytes := littleEndian 8 n

def length : Reader Nat := word 8

def ofVariant (n : Nat) : Bytes := littleEndian 4 n

def variant : Reader Nat := word 4

/-- The value whose place in the list is the variant. -/
def oneOf (values : List α) : Reader α := do
  match values[← variant]? with
  | some a => pure a
  | none => failure

def ofFlag : Bool → Bytes
  | false => [0]
  | true => [1]

/-- A byte that is 0 or 1. -/
def flag : Reader Bool := do
  match ← word 1 with
  | 0 => pure false
  | 1 => pure true
  | _ => failure

/-- A flag, and the value if it is set. -/
def ofOption (write : α → Bytes) : Option α → Bytes
  | none => ofFlag false
  | some a => ofFlag true ++ write a

def option (reader : Reader α) : Reader (Option α) := do
  if ← flag then some <$> reader else pure none

/-- The length and then the items. -/
def ofList (write : α → Bytes) (items : List α) : Bytes := ofLength items.length ++ items.flatMap write

def items (reader : Reader α) : Nat → Reader (List α)
  | 0 => pure []
  | n + 1 => do
    let item ← reader
    let rest ← items reader n
    pure (item :: rest)

def list (reader : Reader α) : Reader (List α) := do items reader (← length)

/-- The length of the UTF-8 form and then the UTF-8 form. -/
def ofString (s : String) : Bytes := ofLength s.toUTF8.size ++ s.toUTF8.toList

/-- The string with this UTF-8 form. -/
def utf8? (bytes : Bytes) : Option String := String.fromUTF8? bytes.toByteArray

def string : Reader String := do
  match utf8? (← take (← length)) with
  | some s => pure s
  | none => failure

def ofEntry {κ : Type} (writeKey : κ → Bytes) (write : α → Bytes) (entry : κ × α) : Bytes :=
  writeKey entry.1 ++ write entry.2

def entry {κ : Type} (key : Reader κ) (reader : Reader α) : Reader (κ × α) := do
  let k ← key
  let v ← reader
  pure (k, v)

/-- The number of entries and then the entries, in any order. -/
def entries {κ : Type} [Ord κ] (key : Reader κ) (reader : Reader α) : Reader (List (κ × α)) :=
  Entries.ofList <$> list (entry key reader)

def table {κ : Type} [Ord κ] [Std.TransOrd κ] [Std.LawfulEqOrd κ] (key : Reader κ) (reader : Reader α) :
    Reader (Table κ α) :=
  Table.ofList <$> list (entry key reader)

/-- The value at the front of the bytes; what follows it does not matter. -/
def decode (reader : Reader α) (bytes : Bytes) : Option α := (reader bytes).map (·.1)

end Wire

end DialMenu
