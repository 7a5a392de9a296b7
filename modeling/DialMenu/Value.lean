import DialMenu.Json.Reading
import DialMenu.Wire

/-!
Free-form values that contexts carry and services answer with. In both encodings a value names its kind, so
that the two can tell the kinds apart.
-/

namespace DialMenu

inductive Value where
  | null
  | bool (b : Bool)
  | int (n : Int64)
  | text (s : String)
  | list (items : List Value)
  | map (entries : List (String × Value))
deriving Inhabited

namespace Value

mutual

/-- The entries of every map inside ascend by key. -/
def Canonical : Value → Prop
  | list items => CanonicalItems items
  | map entries => Entries.Sorted entries ∧ CanonicalEntries entries
  | _ => True

def CanonicalItems : List Value → Prop
  | [] => True
  | item :: items => Canonical item ∧ CanonicalItems items

def CanonicalEntries : List (String × Value) → Prop
  | [] => True
  | (_, value) :: entries => Canonical value ∧ CanonicalEntries entries

end

mutual

def decEq : (a b : Value) → Decidable (a = b)
  | null, null => isTrue rfl
  | bool a, bool b => decidable_of_iff (a = b) (by simp)
  | int a, int b => decidable_of_iff (a = b) (by simp)
  | text a, text b => decidable_of_iff (a = b) (by simp)
  | list a, list b => @decidable_of_iff _ _ (by simp) (decEqItems a b)
  | map a, map b => @decidable_of_iff _ _ (by simp) (decEqEntries a b)
  | null, bool _ | null, int _ | null, text _ | null, list _ | null, map _
  | bool _, null | bool _, int _ | bool _, text _ | bool _, list _ | bool _, map _
  | int _, null | int _, bool _ | int _, text _ | int _, list _ | int _, map _
  | text _, null | text _, bool _ | text _, int _ | text _, list _ | text _, map _
  | list _, null | list _, bool _ | list _, int _ | list _, text _ | list _, map _
  | map _, null | map _, bool _ | map _, int _ | map _, text _ | map _, list _ => isFalse (by simp)

def decEqItems : (a b : List Value) → Decidable (a = b)
  | [], [] => isTrue rfl
  | [], _ :: _ | _ :: _, [] => isFalse (by simp)
  | a :: as, b :: bs => @decidable_of_iff _ (a = b ∧ as = bs) (by simp)
      (@instDecidableAnd _ _ (decEq a b) (decEqItems as bs))

def decEqEntries : (a b : List (String × Value)) → Decidable (a = b)
  | [], [] => isTrue rfl
  | [], _ :: _ | _ :: _, [] => isFalse (by simp)
  | (k, a) :: as, (l, b) :: bs => @decidable_of_iff _ (k = l ∧ a = b ∧ as = bs) (by simp [and_assoc])
      (@instDecidableAnd _ _ inferInstance (@instDecidableAnd _ _ (decEq a b) (decEqEntries as bs)))

end

instance : DecidableEq Value := decEq

/-- The value under `key`, if this is a map that has it. -/
def get? (key : String) : Value → Option Value
  | map entries => Entries.get? key entries
  | _ => none

def asBool : Value → Option Bool
  | bool b => some b
  | _ => none

def asInt : Value → Option Int64
  | int n => some n
  | _ => none

def asText : Value → Option String
  | text s => some s
  | _ => none

/-- The map with the given entries. -/
def ofEntries (entries : List (String × Value)) : Value := map (Entries.ofList entries)

/-- The conventional answer of a service that has nothing else to say. -/
def success : Value := ofEntries [("success", bool true)]

/-- A map with `true` under `success`. -/
def IsSuccess (v : Value) : Prop := (v.get? "success").bind asBool = some true

instance (v : Value) : Decidable v.IsSuccess := inferInstanceAs (Decidable (_ = _))

mutual

def toJson : Value → Json
  | null => .str "Null"
  | bool b => .record [("Bool", .bool b)]
  | int n => .record [("Int", .integer n.toInt)]
  | text s => .record [("Text", .str s)]
  | list items => .record [("List", .array (itemsToJson items))]
  | map entries => .record [("Map", .object (entriesToJson entries))]

def itemsToJson : List Value → List Json
  | [] => []
  | item :: items => toJson item :: itemsToJson items

def entriesToJson : List (String × Value) → List (Json.Literal × Json)
  | [] => []
  | (key, value) :: entries => (.text key, toJson value) :: entriesToJson entries

end

/-- Reads a value given by its kind. A list or a map lies in two arrays or objects of its own. -/
def ofJson : Json.Reader Value
  | _, .string (.text "Null") => some null
  | d, .object [(.text kind, body)] =>
    match d with
    | 0 => none
    | d + 1 =>
      if kind = "Null" then (match body with | .null => some null | _ => none)
      else if kind = "Bool" then (Json.boolean d body).map bool
      else if kind = "Int" then (Json.int64 d body).map int
      else if kind = "Text" then (Json.text d body).map text
      else
        match d, body with
        | d + 1, .array items => if kind = "List" then (items.mapM (ofJson d)).map list else none
        | d + 1, .object members => if kind = "Map" then (Json.entries some (ofJson d) members).map map else none
        | _, _ => none
  | _, _ => none

mutual

def encode : Value → Bytes
  | null => Wire.ofVariant 0
  | bool b => Wire.ofVariant 1 ++ Wire.ofFlag b
  | int n => Wire.ofVariant 2 ++ Wire.ofInt64 n
  | text s => Wire.ofVariant 3 ++ Wire.ofString s
  | list items => Wire.ofVariant 4 ++ Wire.ofLength items.length ++ encodeItems items
  | map entries => Wire.ofVariant 5 ++ Wire.ofLength entries.length ++ encodeEntries entries

def encodeItems : List Value → Bytes
  | [] => []
  | item :: items => encode item ++ encodeItems items

def encodeEntries : List (String × Value) → Bytes
  | [] => []
  | (key, value) :: entries => Wire.ofString key ++ encode value ++ encodeEntries entries

end

/-- Reads a value that is at most `fuel` kinds deep. -/
def decodeWithin : Nat → Wire.Reader Value
  | 0 => failure
  | fuel + 1 => do
    match ← Wire.variant with
    | 0 => pure null
    | 1 => bool <$> Wire.flag
    | 2 => int <$> Wire.int64
    | 3 => text <$> Wire.string
    | 4 => list <$> Wire.list (decodeWithin fuel)
    | 5 => map <$> Wire.entries Wire.string (decodeWithin fuel)
    | _ => failure

/-- Every kind takes four bytes, so the bytes that are left bound the depth. -/
def decode : Wire.Reader Value := fun bytes => decodeWithin (bytes.length + 1) bytes

end Value

end DialMenu
