import DialMenu.Text.Basic
import Mathlib.Algebra.Group.Nat.Defs

/-!
How numerals stand in a text: their digits are no blanks and end where something else begins, and a numeral that is
filled up to a width has that width and keeps its value.
-/

namespace DialMenu

namespace Numeral

theorem toNat_of_isDigit {c : Char} (digit : c.isDigit = true) : 48 ≤ c.toNat ∧ c.toNat ≤ 57 := by
  simpa [Char.isDigit, UInt32.le_iff_toNat_le] using digit

theorem digitValue_le {c : Char} (digit : c.isDigit = true) : digitValue c ≤ 9 := by
  have bounds := toNat_of_isDigit digit
  rw [digitValue]
  omega

/-- Only the numeral of zero begins with a zero. -/
theorem head?_ofNat {n : Nat} (positive : 0 < n) : (ofNat n).head? ≠ some '0' := by
  fun_induction ofNat n with
  | case1 n small =>
    intro zero
    have value := congrArg digitValue (Option.some.inj zero)
    rw [digitValue_digit small] at value
    exact absurd value (Nat.ne_of_gt positive)
  | case2 n large ih =>
    have above := ih (by omega)
    cases digits : ofNat (n / 10) with
    | nil => exact absurd digits (ofNat_ne_nil _)
    | cons d more =>
      rw [digits] at above
      exact above

theorem eq_nil_of_ofNat_eq {n : Nat} {digits : List Char} (zero : ofNat n = '0' :: digits) : digits = [] := by
  rcases Nat.eq_zero_or_pos n with rfl | positive
  · rw [ofNat, if_pos (by decide)] at zero
    exact (List.cons.inj zero).2.symm
  · have head := head?_ofNat positive
    rw [zero] at head
    exact absurd rfl head

section Digits

variable {digits rest : List Char}

theorem takeWhile_digits (all : ∀ c ∈ digits, c.isDigit = true) (ended : rest.takeWhile Char.isDigit = []) :
    (digits ++ rest).takeWhile Char.isDigit = digits := by
  rw [List.takeWhile_append_of_pos all, ended, List.append_nil]

theorem dropWhile_digits (all : ∀ c ∈ digits, c.isDigit = true) (ended : rest.takeWhile Char.isDigit = []) :
    (digits ++ rest).dropWhile Char.isDigit = rest := by
  have whole := List.takeWhile_append_dropWhile (p := Char.isDigit) (l := digits ++ rest)
  rw [takeWhile_digits all ended] at whole
  exact List.append_cancel_left whole

end Digits

section Padded

variable {width n : Nat}

theorem isDigit_of_mem_padded {c : Char} (mem : c ∈ padded width n) : c.isDigit = true := by
  rcases List.mem_append.1 mem with zero | digit
  · rw [List.eq_of_mem_replicate zero]
    rfl
  · exact isDigit_of_mem_ofNat digit

theorem padded_ne_nil (width n : Nat) : padded width n ≠ [] :=
  List.append_ne_nil_of_right_ne_nil _ (ofNat_ne_nil n)

theorem value_append_digits (cs ds : List Char) :
    value (cs ++ ds) = ds.foldl (fun n c => 10 * n + digitValue c) (value cs) :=
  List.foldl_append

/-- A numeral is less than the next power of ten. -/
theorem value_lt {digits : List Char} (all : ∀ c ∈ digits, c.isDigit = true) :
    value digits < 10 ^ digits.length := by
  suffices bound : ∀ n, digits.foldl (fun n c => 10 * n + digitValue c) n < (n + 1) * 10 ^ digits.length by
    simpa [value] using bound 0
  induction digits with
  | nil => simp
  | cons d digits ih =>
    intro n
    obtain ⟨digit, later⟩ := List.forall_mem_cons.1 all
    have next := ih later (10 * n + digitValue d)
    have small := digitValue_le digit
    have grown : (10 * n + digitValue d + 1) * 10 ^ digits.length ≤ (n + 1) * 10 * 10 ^ digits.length :=
      Nat.mul_le_mul_right _ (by omega)
    rw [List.foldl_cons, List.length_cons, Nat.pow_succ, Nat.mul_comm (10 ^ _), ← Nat.mul_assoc]
    omega

theorem value_replicate_zero (k : Nat) : value (List.replicate k '0') = 0 := by
  induction k with
  | zero => rfl
  | succ k ih => exact ih

theorem value_padded (width n : Nat) : value (padded width n) = n := by
  rw [padded, value_append_digits, value_replicate_zero]
  exact value_ofNat n

/-- Numerals without superfluous digits. -/
theorem length_ofNat_le (positive : 0 < width) (small : n < 10 ^ width) : (ofNat n).length ≤ width := by
  induction width generalizing n with
  | zero => omega
  | succ width ih =>
    rw [ofNat]
    split
    · exact Nat.le_add_left 1 width
    · rename_i large
      have front : n / 10 < 10 ^ width := by
        rw [Nat.pow_succ] at small
        omega
      cases width with
      | zero => simp at front; omega
      | succ width =>
        have shorter := ih (by omega) front
        simp only [List.length_append, List.length_singleton]
        omega

theorem length_padded_le {digits : Nat} (positive : 0 < digits) (wide : width ≤ digits) (small : n < 10 ^ digits) :
    (padded width n).length ≤ digits := by
  have short := length_ofNat_le positive small
  rw [padded, List.length_append, List.length_replicate]
  omega

theorem length_padded (positive : 0 < width) (small : n < 10 ^ width) : (padded width n).length = width := by
  have short := length_ofNat_le positive small
  rw [padded, List.length_append, List.length_replicate]
  omega

end Padded

end Numeral

theorem Text.isBlank_of_isDigit {c : Char} (digit : c.isDigit = true) : isBlank c = false := by
  have bounds := Numeral.toNat_of_isDigit digit
  simp only [isBlank, Bool.or_eq_false_iff, Bool.and_eq_false_iff, decide_eq_false_iff_not]
  omega

end DialMenu
