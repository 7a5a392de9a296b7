import DialMenu.Encoding
import DialMenu.Proofs.Wire
import Mathlib.Algebra.GroupWithZero.Nat

/-!
Identifiers are read back from their written form and from their sixteen bytes.
-/

namespace DialMenu

theorem Hex.length_encode (bytes : List UInt8) : (Hex.encode bytes).length = 2 * bytes.length := by
  induction bytes with
  | nil => rfl
  | cons b bytes ih =>
    change (Hex.encode bytes).length + 1 + 1 = 2 * (bytes.length + 1)
    omega

namespace Uuid

theorem length_group {sizes : List Nat} {cs : List Char} (enough : sizes.sum ≤ cs.length) :
    (group sizes cs).length = cs.length + (sizes.length - 1) := by
  fun_induction group sizes cs with
  | case1 n m sizes cs ih =>
    simp only [List.sum_cons, List.length_drop, List.length_cons] at enough ih
    simp only [List.length_append, List.length_take, List.length_cons]
    omega
  | case2 sizes cs single =>
    cases sizes with
    | nil => rfl
    | cons n sizes =>
      cases sizes with
      | nil => rfl
      | cons m sizes => exact absurd rfl (single n m sizes)

/-- The hyphens are found where they were put. -/
theorem ungroup_group {sizes : List Nat} {cs : List Char} (enough : sizes.sum ≤ cs.length) :
    ungroup sizes (group sizes cs) = some cs := by
  fun_induction group sizes cs with
  | case1 n m sizes cs ih =>
    simp only [List.sum_cons, List.length_drop] at enough ih
    have size : (cs.take n).length = n := by
      rw [List.length_take]
      omega
    have front : (cs.take n ++ '-' :: group (m :: sizes) (cs.drop n)).take n = cs.take n := List.take_left' size
    have back : (cs.take n ++ '-' :: group (m :: sizes) (cs.drop n)).drop n = '-' :: group (m :: sizes) (cs.drop n) :=
      List.drop_left' size
    rw [ungroup, back, front]
    simp [ih (by omega)]
  | case2 sizes cs single =>
    cases sizes with
    | nil => rfl
    | cons n sizes =>
      cases sizes with
      | nil => rfl
      | cons m sizes => exact absurd rfl (single n m sizes)

theorem ofBytes?_bytes (id : Uuid) : ofBytes? id.bytes = some id := dif_pos id.length_bytes

/-- Every identifier is read back from its written form. -/
theorem read_write (id : Uuid) : read id.write = some id := by
  have digits : (Hex.encode id.bytes).length = 32 := by rw [Hex.length_encode, id.length_bytes]
  have enough : groups.sum ≤ (Hex.encode id.bytes).length := by
    rw [digits]
    decide
  have size : (group groups (Hex.encode id.bytes)).length = 36 := by
    rw [length_group enough, digits]
    rfl
  rw [read, write, String.toList_ofList, readChars, if_neg (by omega), if_pos size, ungroup_group enough]
  change ofDigits? (Hex.encode id.bytes) = some id
  rw [ofDigits?, if_pos digits, Hex.decode?_encode]
  exact ofBytes?_bytes id

end Uuid

end DialMenu
