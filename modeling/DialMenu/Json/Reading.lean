import DialMenu.Json.Grammar
import DialMenu.Table

/-!
Reading typed values out of JSON. A reader is told how many arrays and objects it may still enter; what it
does not look at is not counted. Records are read by name from an object or by position from an array.
-/

namespace DialMenu.Json

/-- The number of arrays and objects that may lie around a value that is read. -/
def nesting : Nat := 127

/-- Reads a value of type `α`, entering at most the given number of arrays and objects. -/
abbrev Reader (α : Type) := Nat → Json → Option α

variable {α : Type}

/-- Reads a whole text. -/
def Reader.ofText (reader : Reader α) (s : String) : Option α := read s >>= reader nesting

def text : Reader String
  | _, .string (.text s) => some s
  | _, _ => none

def boolean : Reader Bool
  | _, .bool b => some b
  | _, _ => none

/-- An integer from `low` to `high`. -/
def integerBetween (low high : Int) : Reader Int
  | _, .integer n => if low ≤ n ∧ n ≤ high then some n else none
  | _, _ => none

def int64 : Reader Int64 := fun d j => (integerBetween (-9223372036854775808) 9223372036854775807 d j).map Int64.ofInt

def uint64 : Reader UInt64 := fun d j => (integerBetween 0 18446744073709551615 d j).map fun n => UInt64.ofNat n.toNat

def uint32 : Reader UInt32 := fun d j => (integerBetween 0 4294967295 d j).map fun n => UInt32.ofNat n.toNat

/-- `null` or a value. -/
def nullable (reader : Reader α) : Reader (Option α)
  | _, .null => some none
  | d, j => (reader d j).map some

def list (reader : Reader α) : Reader (List α)
  | d + 1, .array items => items.mapM (reader d)
  | _, _ => none

def entry {κ : Type} (key : String → Option κ) (reader : Json → Option α) : Literal × Json → Option (κ × α)
  | (.text name, value) => do
    let k ← key name
    let v ← reader value
    pure (k, v)
  | (.unpaired, _) => none

/-- The members of an object with their names as keys; of two for one key the later stays. -/
def entries {κ : Type} [Ord κ] (key : String → Option κ) (reader : Json → Option α) (members : List (Literal × Json)) :
    Option (List (κ × α)) :=
  (members.mapM (entry key reader)).map Entries.ofList

def table {κ : Type} [Ord κ] [Std.TransOrd κ] [Std.LawfulEqOrd κ] (key : String → Option κ) (reader : Reader α) :
    Reader (Table κ α)
  | d + 1, .object members => (members.mapM (entry key (reader d))).map Table.ofList
  | _, _ => none

/-- A value that is given by its name: as a string, or as an object that maps the name to `null`. -/
def named (ofName : String → Option α) : Reader α
  | _, .string (.text name) => ofName name
  | _ + 1, .object [(.text name, .null)] => ofName name
  | _, _ => none

/-- What a record says about one of its fields. -/
inductive Slot where
  | given (j : Json)
  /-- The object has no such member. -/
  | absent
  /-- The array ends before it. -/
  | past

/-- The members for a field. -/
def occurrences (field : String) (members : List (Literal × Json)) : List Json :=
  members.filterMap fun (name, value) => if name = .text field then some value else none

/-- The fields of a record: of an object that gives no known field twice, or of an array with one item for
each field, in their order, that may end early. Unknown members do not matter. -/
def fields (names : List String) : Json → Option (String → Slot)
  | .object members =>
    if members.all (fun (name, _) => name ≠ .unpaired) ∧ names.all (fun name => (occurrences name members).length ≤ 1) then
      some fun name =>
        match occurrences name members with
        | value :: _ => .given value
        | [] => .absent
    else none
  | .array items =>
    if items.length ≤ names.length then
      some fun name =>
        match items[names.idxOf name]? with
        | some value => .given value
        | none => .past
    else none
  | _ => none

namespace Slot

/-- A field that has to be there. -/
def required (reader : Json → Option α) : Slot → Option α
  | given j => reader j
  | _ => none

/-- A field that is `null` if an object does not have it. -/
def optional (reader : Json → Option α) : Slot → Option (Option α)
  | given .null => some none
  | given j => (reader j).map some
  | absent => some none
  | past => none

/-- A field that has a value of its own if it is not there. -/
def orDefault (value : α) (reader : Json → Option α) : Slot → Option α
  | given j => reader j
  | _ => some value

end Slot

def ofOption (write : α → Json) : Option α → Json
  | none => null
  | some a => write a

def ofList (write : α → Json) (items : List α) : Json := array (items.map write)

def ofEntries {κ : Type} (name : κ → String) (write : α → Json) (entries : List (κ × α)) : Json :=
  record (entries.map fun (k, v) => (name k, write v))

end DialMenu.Json
