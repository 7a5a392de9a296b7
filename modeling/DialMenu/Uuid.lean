import DialMenu.Text.Basic

/-!
Identifiers of 128 bits: written as five groups of lower case digits, read with or without the hyphens, in
braces or as a URN, in either case.
-/

namespace DialMenu

structure Uuid where
  bytes : List UInt8
  length_bytes : bytes.length = 16
deriving DecidableEq

namespace Uuid

def ofBytes? (bytes : List UInt8) : Option Uuid :=
  if size : bytes.length = 16 then some ⟨bytes, size⟩ else none

/-- The identifier with the number `n` in its last four bytes. -/
def ofNat (n : Nat) : Uuid :=
  ⟨List.replicate 12 0 ++ [UInt8.ofNat (n / 16777216), UInt8.ofNat (n / 65536), UInt8.ofNat (n / 256), UInt8.ofNat n],
    rfl⟩

instance : Inhabited Uuid := ⟨ofNat 0⟩

/-- Joins groups of digits of the given sizes by hyphens. -/
def group : List Nat → List Char → List Char
  | n :: m :: sizes, cs => cs.take n ++ '-' :: group (m :: sizes) (cs.drop n)
  | _, cs => cs

/-- Takes the hyphens out again, if they stand between groups of the given sizes. -/
def ungroup : List Nat → List Char → Option (List Char)
  | n :: m :: sizes, cs =>
    match cs.drop n with
    | '-' :: rest => (ungroup (m :: sizes) rest).map (cs.take n ++ ·)
    | _ => none
  | _, cs => some cs

def groups : List Nat := [8, 4, 4, 4, 12]

def write (id : Uuid) : String := String.ofList (group groups (Hex.encode id.bytes))

def ofDigits? (digits : List Char) : Option Uuid :=
  if digits.length = 32 then Hex.decode? digits >>= ofBytes? else none

def readChars (cs : List Char) : Option Uuid :=
  if cs.length = 32 then ofDigits? cs
  else if cs.length = 36 then ungroup groups cs >>= ofDigits?
  else if cs.length = 38 ∧ cs.head? = some '{' ∧ cs.getLast? = some '}' then
    ungroup groups (cs.drop 1).dropLast >>= ofDigits?
  else if cs.length = 45 ∧ (cs.take 9).map Char.toLower = "urn:uuid:".toList then
    ungroup groups (cs.drop 9) >>= ofDigits?
  else none

def read (s : String) : Option Uuid := readChars s.toList

end Uuid

end DialMenu
