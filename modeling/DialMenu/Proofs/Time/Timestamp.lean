import DialMenu.Proofs.Numeral
import DialMenu.Proofs.Time.Calendar
import DialMenu.Time.Timestamp

/-!
Every instant with its leap second at the end of a minute is read back from its written form: years beyond four digits,
years before year 0 and fractions of every length included. A leap second elsewhere is written as the next second, and
whatever is read has none.
-/

namespace DialMenu

namespace Instant

variable {t : Instant}

/-- The instant that the written form names. A leap second in the middle of a minute is written as the second after. -/
def settled (t : Instant) : Instant :=
  if late : 1000000000 ≤ t.nano ∧ t.second % 60 ≠ 59 then
    { second := t.second + 1
      nano := t.nano - 1000000000
      second_mem := by have range := t.second_mem; omega
      nano_lt := by have parts := t.nano_lt; omega }
  else t

theorem not_regular_iff : ¬ t.Regular ↔ 1000000000 ≤ t.nano ∧ t.second % 60 ≠ 59 := by
  rw [Regular, not_or, Nat.not_lt]

/-- Only a leap second in the middle of a minute is lost. -/
theorem settled_eq_iff : t.settled = t ↔ t.Regular := by
  unfold settled
  split
  · rename_i late
    refine iff_of_false (fun same => ?_) (not_regular_iff.2 late)
    have second : t.second + 1 = t.second := congrArg Instant.second same
    omega
  · rename_i early
    exact iff_of_true rfl (Decidable.not_not.1 (mt not_regular_iff.1 early))

end Instant

namespace Timestamp

/-- Digits are never skipped as blanks. -/
theorem skipBlanks_digits {digits : List Char} (some : digits ≠ []) (all : ∀ c ∈ digits, c.isDigit = true)
    (rest : List Char) : Text.skipBlanks (digits ++ rest) = digits ++ rest := by
  cases digits with
  | nil => exact absurd rfl some
  | cons d digits =>
    refine List.dropWhile_cons_of_neg ?_
    simp [Text.isBlank_of_isDigit (all d List.mem_cons_self)]

/-- A number takes its digits, which end at the width or where something else begins. -/
theorem number_digits {width : Nat} {digits rest : List Char} (some : digits ≠ [])
    (all : ∀ c ∈ digits, c.isDigit = true) (short : digits.length ≤ width)
    (ended : digits.length = width ∨ rest.takeWhile Char.isDigit = []) :
    number width (digits ++ rest) = .some (Numeral.value digits, rest) := by
  have shortEnded : (rest.take (width - digits.length)).takeWhile Char.isDigit = [] := by
    rcases ended with full | ended
    · rw [full, Nat.sub_self]
      rfl
    · cases rest with
      | nil => rw [List.take_nil]; rfl
      | cons c rest =>
        cases width - digits.length with
        | zero => rfl
        | succ k =>
          rw [List.take_succ_cons]
          cases digit : c.isDigit <;> simp [digit] at ended ⊢
  rw [number, List.take_append, List.take_of_length_le short, Numeral.takeWhile_digits all shortEnded]
  cases digits with
  | nil => exact absurd rfl some
  | cons d digits => simp

theorem field_padded {width n : Nat} (positive : 0 < width) (small : n < 10 ^ width) (rest : List Char) :
    field width (Numeral.padded width n ++ rest) = some (n, rest) := by
  have all : ∀ c ∈ Numeral.padded width n, c.isDigit = true := fun c => Numeral.isDigit_of_mem_padded
  have full := Numeral.length_padded positive small
  rw [field, skipBlanks_digits (Numeral.padded_ne_nil width n) all,
    number_digits (Numeral.padded_ne_nil width n) all (Nat.le_of_eq full) (.inl full), Numeral.value_padded]

theorem mark_cons {c : Char} (visible : Text.isBlank c = false) (rest : List Char) : mark c (c :: rest) = some rest := by
  simp [mark, Text.skipBlanks, visible]

/-- A year without a sign. -/
theorem year_digits {digits rest : List Char} (some : digits ≠ []) (all : ∀ c ∈ digits, c.isDigit = true)
    (full : digits.length = 4) : year (digits ++ rest) = .some ((Numeral.value digits : Int), rest) := by
  have number : number 4 (digits ++ rest) = .some (Numeral.value digits, rest) :=
    number_digits some all (Nat.le_of_eq full) (.inl full)
  rw [year, skipBlanks_digits some all]
  cases digits with
  | nil => exact absurd rfl some
  | cons d digits =>
    have digit := all d List.mem_cons_self
    rw [List.cons_append] at number ⊢
    split
    case h_3 => simp [number]
    all_goals
      rename_i same
      cases same
      exact absurd digit (by decide)

theorem year_minus (rest : List Char) :
    year ('-' :: rest) = (number rest.length rest).map fun (n, rest) => (-(n : Int), rest) := rfl

theorem year_plus (rest : List Char) :
    year ('+' :: rest) = (number rest.length rest).map fun (n, rest) => ((n : Int), rest) := rfl

theorem year_writeYear (y : Int) (rest : List Char) : year (writeYear y ++ '-' :: rest) = some (y, '-' :: rest) := by
  have all (n : Nat) : ∀ c ∈ Numeral.padded 4 n, c.isDigit = true := fun c => Numeral.isDigit_of_mem_padded
  rw [writeYear]
  split
  · rename_i bounds
    have full : (Numeral.padded 4 y.toNat).length = 4 := Numeral.length_padded (by decide) (by omega)
    rw [year_digits (Numeral.padded_ne_nil 4 _) (all _) full, Numeral.value_padded, Int.toNat_of_nonneg bounds.1]
  · have number : number (Numeral.padded 4 y.natAbs ++ '-' :: rest).length (Numeral.padded 4 y.natAbs ++ '-' :: rest) =
        some (Numeral.value (Numeral.padded 4 y.natAbs), '-' :: rest) :=
      number_digits (Numeral.padded_ne_nil 4 y.natAbs) (all _) (by simp) (.inr rfl)
    rw [Numeral.value_padded] at number
    by_cases negative : y < 0
    · have value : -(y.natAbs : Int) = y := by omega
      rw [if_pos negative, List.cons_append, year_minus, number]
      exact congrArg (fun y => some (y, '-' :: rest)) value
    · have value : (y.natAbs : Int) = y := by omega
      rw [if_neg negative, List.cons_append, year_plus, number]
      exact congrArg (fun y => some (y, '-' :: rest)) value

theorem value_append_zeros (cs : List Char) (k : Nat) :
    Numeral.value (cs ++ List.replicate k '0') = Numeral.value cs * 10 ^ k := by
  induction k with
  | zero => simp
  | succ k ih =>
    rw [List.replicate_succ', ← List.append_assoc, Numeral.value_append_digits, ih, Nat.pow_succ, ← Nat.mul_assoc]
    exact Nat.mul_comm 10 _

/-- The digits of a fraction count the units of their last place. -/
theorem fraction_digits {digits : List Char} (some : digits ≠ []) (all : ∀ c ∈ digits, c.isDigit = true)
    (short : digits.length ≤ 9) :
    fraction ('.' :: digits ++ ['Z']) = .some (Numeral.value digits * 10 ^ (9 - digits.length), ['Z']) := by
  have value := value_append_zeros digits (9 - digits.length)
  rw [List.cons_append, fraction, Numeral.takeWhile_digits all rfl]
  cases digits with
  | nil => exact absurd rfl some
  | cons d digits => simp only [List.take_of_length_le short, value, List.drop_left]

theorem fraction_padded {places n : Nat} (positive : 0 < places) (atMost : places ≤ 9) (small : n < 10 ^ places) :
    fraction ('.' :: Numeral.padded places n ++ ['Z']) = some (n * 10 ^ (9 - places), ['Z']) := by
  have all : ∀ c ∈ Numeral.padded places n, c.isDigit = true := fun c => Numeral.isDigit_of_mem_padded
  have full := Numeral.length_padded positive small
  rw [fraction_digits (Numeral.padded_ne_nil places n) all (by omega), Numeral.value_padded, full]

theorem fraction_writeFraction {nano : Nat} (small : nano < 1000000000) :
    fraction (writeFraction nano ++ ['Z']) = some (nano, ['Z']) := by
  rw [writeFraction]
  split
  · rename_i none
    rw [none]
    rfl
  split
  · rename_i millis
    rw [fraction_padded (by decide) (by decide) (by omega)]
    have value : nano / 1000000 * 10 ^ (9 - 3) = nano := by omega
    rw [value]
  split
  · rename_i micros
    rw [fraction_padded (by decide) (by decide) (by omega)]
    have value : nano / 1000 * 10 ^ (9 - 6) = nano := by omega
    rw [value]
  · rw [fraction_padded (by decide) (by decide) small]
    exact congrArg some (by simp)

/-- The parts of the written form belong together. -/
theorem assemble_parts (t : Instant) {time : Nat} (timeOfDay : time = (t.second % 86400).toNat) :
    assemble (Date.ofDay (t.second / 86400)) (time / 3600) (time / 60 % 60)
      (time % 60 + if t.isLeap then 1 else 0) (t.nano % 1000000000) 0 = some t.settled := by
  have range := t.second_mem
  have parts := t.nano_lt
  have year := Date.year_ofDay (n := t.second / 86400) (by omega)
  have fields : time / 3600 < 24 ∧ time / 60 % 60 < 60 := by omega
  -- The field for the second is the one of the instant, or the one after it in a leap second.
  have second (field : Nat) : (Date.ofDay (t.second / 86400)).toDay * 86400 +
      (time / 3600 * 3600 + time / 60 % 60 * 60 + min field 59 : Nat) - 0 =
        t.second - (time % 60 : Nat) + (min field 59 : Nat) := by
    rw [Date.toDay_ofDay]
    omega
  unfold Instant.settled
  by_cases leap : 1000000000 ≤ t.nano
  · have nano : t.nano % 1000000000 = t.nano - 1000000000 := by omega
    rw [Instant.isLeap, decide_eq_true leap, if_pos rfl, assemble,
      if_pos ⟨Date.valid_ofDay _, year.1, year.2, fields.1, fields.2, by omega⟩]
    dsimp only
    rw [second, Instant.ofParts?_eq_some_iff, nano]
    by_cases last : time % 60 = 59
    · rw [dif_neg (by omega), last]
      simp
      omega
    · rw [dif_pos (by omega), if_neg (by omega)]
      constructor <;> dsimp only <;> omega
  · have nano : t.nano % 1000000000 = t.nano := by omega
    rw [Instant.isLeap, decide_eq_false leap, if_neg Bool.false_ne_true, assemble,
      if_pos ⟨Date.valid_ofDay _, year.1, year.2, fields.1, fields.2, by omega⟩]
    dsimp only
    rw [second, Instant.ofParts?_eq_some_iff, nano, dif_neg fun late => leap late.1, if_neg (by omega)]
    omega

/-- Everything between the year and the fraction has two digits. -/
theorem parts_lt (t : Instant) {time : Nat} (timeOfDay : time = (t.second % 86400).toNat) :
    (Date.ofDay (t.second / 86400)).month < 10 ^ 2 ∧ (Date.ofDay (t.second / 86400)).day < 10 ^ 2 ∧
      time / 3600 < 10 ^ 2 ∧ time / 60 % 60 < 10 ^ 2 ∧ (time % 60 + if t.isLeap then 1 else 0) < 10 ^ 2 := by
  obtain ⟨-, monthLe, -, dayLe⟩ := Date.valid_ofDay (t.second / 86400)
  have days : Date.daysInMonth (Date.ofDay (t.second / 86400)).year (Date.ofDay (t.second / 86400)).month ≤ 31 := by
    rw [Date.daysInMonth]
    split
    · split <;> decide
    · split <;> decide
  refine ⟨by omega, by omega, by omega, by omega, ?_⟩
  split <;> omega

/-- Every instant is read back from its written form, a leap second in the middle of a minute as the second after. -/
theorem read_write (t : Instant) : read (write t) = some t.settled := by
  obtain ⟨time, timeOfDay⟩ : ∃ time, time = (t.second % 86400).toNat := ⟨_, rfl⟩
  obtain ⟨month, day, hour, minute, second⟩ := parts_lt t timeOfDay
  have nano : t.nano % 1000000000 < 1000000000 := Nat.mod_lt _ (by decide)
  have dash : Text.isBlank '-' = false := by decide
  have colon : Text.isBlank ':' = false := by decide
  have whole := assemble_parts t timeOfDay
  rw [read, write, String.toList_ofList, writeChars, ← timeOfDay]
  simp only [readChars, separator, List.append_assoc, List.cons_append, year_writeYear, mark_cons dash, mark_cons colon,
    field_padded Nat.two_pos month, field_padded Nat.two_pos day, field_padded Nat.two_pos hour,
    field_padded Nat.two_pos minute, field_padded Nat.two_pos second, fraction_writeFraction nano,
    Option.bind_eq_bind, Option.bind_some]
  exact whole

theorem fraction_lt {cs rest : List Char} {nano : Nat} (taken : fraction cs = some (nano, rest)) :
    nano < 1000000000 := by
  unfold fraction at taken
  split at taken
  · rename_i cs
    split at taken
    · cases taken
    · cases taken
      have all : ∀ c ∈ (cs.takeWhile Char.isDigit).take 9 ++
          List.replicate (9 - (cs.takeWhile Char.isDigit).length) '0', c.isDigit = true := by
        intro c mem
        rcases List.mem_append.1 mem with digit | zero
        · exact List.all_eq_true.1 List.all_takeWhile c (List.mem_of_mem_take digit)
        · rw [List.eq_of_mem_replicate zero]
          rfl
      have nine : ((cs.takeWhile Char.isDigit).take 9 ++
          List.replicate (9 - (cs.takeWhile Char.isDigit).length) '0').length = 9 := by
        simp only [List.length_append, List.length_take, List.length_replicate]
        omega
      have small := Numeral.value_lt all
      rwa [nine] at small
  · cases taken
    decide

theorem signedOffset_mod {sign seconds : Int} {cs rest : List Char}
    (taken : signedOffset sign cs = some (seconds, rest)) : seconds % 60 = 0 := by
  unfold signedOffset at taken
  repeat' split at taken
  all_goals cases taken
  have minutes (h m : Nat) : ((h * 3600 + m * 60 : Nat) : Int) = 60 * (h * 60 + m) := by omega
  rw [minutes, Int.mul_left_comm]
  exact Int.mul_emod_right _ _

/-- The distance to UTC is in whole minutes. -/
theorem offset_mod {seconds : Int} {cs rest : List Char} (taken : offset cs = some (seconds, rest)) :
    seconds % 60 = 0 := by
  unfold offset at taken
  split at taken
  case h_3 | h_4 | h_5 => exact signedOffset_mod taken
  case h_1 | h_2 =>
    cases taken
    rfl
  case h_6 =>
    split at taken
    · cases taken
      rfl
    · cases taken
  case h_7 => cases taken

theorem regular_of_assemble {date : Date} {hour minute second nano : Nat} {offset : Int} {t : Instant}
    (small : nano < 1000000000) (minutes : offset % 60 = 0)
    (made : assemble date hour minute second nano offset = some t) : t.Regular := by
  unfold assemble at made
  split at made
  · obtain ⟨at', nano'⟩ := Instant.ofParts?_eq_some_iff.1 made
    rw [Instant.Regular, at', nano']
    split <;> omega
  · cases made

/-- Whatever is read has its leap second at the end of a minute. -/
theorem regular_of_read {s : String} {t : Instant} (taken : read s = some t) : t.Regular := by
  -- Only the fraction, the offset and the last step matter of what is read on the way.
  obtain ⟨⟨year, _⟩, -, taken⟩ := Option.bind_eq_some_iff.1 taken
  obtain ⟨_, -, taken⟩ := Option.bind_eq_some_iff.1 taken
  obtain ⟨⟨month, _⟩, -, taken⟩ := Option.bind_eq_some_iff.1 taken
  obtain ⟨_, -, taken⟩ := Option.bind_eq_some_iff.1 taken
  obtain ⟨⟨day, _⟩, -, taken⟩ := Option.bind_eq_some_iff.1 taken
  obtain ⟨_, -, taken⟩ := Option.bind_eq_some_iff.1 taken
  obtain ⟨⟨hour, _⟩, -, taken⟩ := Option.bind_eq_some_iff.1 taken
  obtain ⟨_, -, taken⟩ := Option.bind_eq_some_iff.1 taken
  obtain ⟨⟨minute, _⟩, -, taken⟩ := Option.bind_eq_some_iff.1 taken
  obtain ⟨_, -, taken⟩ := Option.bind_eq_some_iff.1 taken
  obtain ⟨⟨second, _⟩, -, taken⟩ := Option.bind_eq_some_iff.1 taken
  obtain ⟨⟨nano, _⟩, digits, taken⟩ := Option.bind_eq_some_iff.1 taken
  obtain ⟨⟨distance, _⟩, zone, taken⟩ := Option.bind_eq_some_iff.1 taken
  exact regular_of_assemble (fraction_lt digits) (offset_mod zone) (Option.ite_none_right_eq_some.1 taken).2

theorem length_writeYear_le {y : Int} (range : -262143 ≤ y ∧ y ≤ 262142) : (writeYear y).length ≤ 7 := by
  rw [writeYear]
  split
  · have short : (Numeral.padded 4 y.toNat).length ≤ 4 :=
      Numeral.length_padded_le (by decide) (by decide) (by omega)
    omega
  · have short : (Numeral.padded 4 y.natAbs).length ≤ 6 :=
      Numeral.length_padded_le (by decide) (by decide) (by omega)
    rw [List.length_cons]
    omega

theorem length_writeFraction_le {nano : Nat} (small : nano < 1000000000) : (writeFraction nano).length ≤ 10 := by
  rw [writeFraction]
  split
  · decide
  split
  · have millis : (Numeral.padded 3 (nano / 1000000)).length = 3 := Numeral.length_padded (by decide) (by omega)
    rw [List.length_cons]
    omega
  split
  · have micros : (Numeral.padded 6 (nano / 1000)).length = 6 := Numeral.length_padded (by decide) (by omega)
    rw [List.length_cons]
    omega
  · have nanos : (Numeral.padded 9 nano).length = 9 := Numeral.length_padded (by decide) small
    rw [List.length_cons]
    omega

/-- The written form of an instant is short. -/
theorem length_writeChars_le (t : Instant) : (writeChars t).length ≤ 33 := by
  obtain ⟨time, timeOfDay⟩ : ∃ time, time = (t.second % 86400).toNat := ⟨_, rfl⟩
  obtain ⟨month, day, hour, minute, second⟩ := parts_lt t timeOfDay
  have range := t.second_mem
  have year := length_writeYear_le (Date.year_ofDay (n := t.second / 86400) (by omega))
  have fraction := length_writeFraction_le (Nat.mod_lt t.nano (by decide : 1000000000 > 0))
  rw [writeChars, ← timeOfDay]
  simp only [List.length_append, List.length_cons, List.length_nil, Numeral.length_padded Nat.two_pos month,
    Numeral.length_padded Nat.two_pos day, Numeral.length_padded Nat.two_pos hour,
    Numeral.length_padded Nat.two_pos minute, Numeral.length_padded Nat.two_pos second]
  omega

end Timestamp

end DialMenu
