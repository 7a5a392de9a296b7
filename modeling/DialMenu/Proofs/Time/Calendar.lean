import DialMenu.Time.Instant

/-!
Day numbers and dates. The date of every day number exists in the calendar and has that day number, and the
dates of the instants lie in the years from -262143 to 262142.
-/

namespace DialMenu.Date

/-- The date of a day in a year that begins in March. -/
def ofMarch (year : Int) (dayOfYear : Nat) : Date :=
  let month := (5 * dayOfYear + 2) / 153
  { year := if month < 10 then year else year + 1
    month := if month < 10 then month + 3 else month - 9
    day := dayOfYear - (153 * month + 2) / 5 + 1 }

/-- How a day number falls into eras, centuries, leap cycles and years that begin in March. -/
structure Reckoning (n : Int) where
  era : Int
  century : Nat
  cycle : Nat
  year : Nat
  day : Nat
  century_le : century ≤ 3
  cycle_le : cycle ≤ 24
  year_le : year ≤ 3
  day_le : day ≤ 365
  /-- Only the last year of a cycle has a leap day, and not the last cycle of the first three centuries. -/
  leap : day = 365 → year = 3 ∧ (cycle = 24 → century = 3)
  sum : n + epoch = era * 146097 + (36524 * century + 1461 * cycle + 365 * year + day : Nat)
  ofDay_eq : ofDay n = ofMarch (era * 400 + (100 * century + 4 * cycle + year : Nat)) day

/-- Every day number has a reckoning. -/
def reckoning (n : Int) : Reckoning n :=
  let dayOfEra := ((n + epoch) % 146097).toNat
  let dayOfCentury := dayOfEra - 36524 * min 3 (dayOfEra / 36524)
  let dayOfCycle := dayOfCentury - 1461 * (dayOfCentury / 1461)
  have eraSum : n + epoch = (n + epoch) / 146097 * 146097 + dayOfEra := by omega
  have eraBound : dayOfEra < 146097 := by omega
  have centuryBound : dayOfCentury ≤ 36524 ∧ (dayOfCentury = 36524 → min 3 (dayOfEra / 36524) = 3) := by omega
  have cycleBound : dayOfCycle ≤ 1460 ∧
      (dayOfCycle = 1460 → dayOfCentury / 1461 = 24 → dayOfCentury = 36524) := by omega
  { era := (n + epoch) / 146097
    century := min 3 (dayOfEra / 36524)
    cycle := dayOfCentury / 1461
    year := min 3 (dayOfCycle / 365)
    day := dayOfCycle - 365 * min 3 (dayOfCycle / 365)
    century_le := by omega
    cycle_le := by omega
    year_le := by omega
    day_le := by omega
    leap := by omega
    sum := by omega
    ofDay_eq := rfl }

theorem toDay_ofMarch (year : Int) {day : Nat} (small : day ≤ 365) :
    (ofMarch year day).toDay = year / 400 * 146097 +
      ((year % 400).toNat * 365 + (year % 400).toNat / 4 - (year % 400).toNat / 100 + day : Nat) - epoch := by
  have monthBound : (5 * day + 2) / 153 < 12 := by omega
  by_cases before : (5 * day + 2) / 153 < 10
  · have noCarry : ¬ (5 * day + 2) / 153 + 3 ≤ 2 := by omega
    have month : ((5 * day + 2) / 153 + 3 + 9) % 12 = (5 * day + 2) / 153 := by omega
    simp only [toDay, ofMarch, before, if_true, noCarry, if_false, month]
    omega
  · have carry : (5 * day + 2) / 153 - 9 ≤ 2 := by omega
    have month : ((5 * day + 2) / 153 - 9 + 9) % 12 = (5 * day + 2) / 153 := by omega
    have back : year + 1 - 1 = year := by omega
    simp only [toDay, ofMarch, before, if_false, carry, if_true, month, back]
    omega

theorem valid_ofMarch {year : Int} {day : Nat} (small : day ≤ 365)
    (leap : day = 365 → isLeapYear (year + 1) = true) : (ofMarch year day).Valid := by
  have monthBound : (5 * day + 2) / 153 < 12 := by omega
  rw [Valid, ofMarch]
  generalize found : (5 * day + 2) / 153 = month at monthBound
  match month, monthBound with
  | 0, _ | 1, _ | 2, _ | 3, _ | 4, _ | 5, _ | 6, _ | 7, _ | 8, _ | 9, _ | 10, _ =>
    simp [daysInMonth]
    omega
  | 11, _ =>
    by_cases last : day = 365
    · simp [daysInMonth, leap last, last]
    · have february : 28 ≤ daysInMonth (year + 1) 2 := by
        rw [daysInMonth, if_pos rfl]
        split <;> decide
      simp only [if_false, Nat.reduceLT, Nat.reduceSub]
      omega

theorem toDay_ofDay (n : Int) : (ofDay n).toDay = n := by
  obtain ⟨era, century, cycle, year, day, centuryLe, cycleLe, yearLe, dayLe, leap, sum, same⟩ := reckoning n
  have yearOfEra : (era * 400 + (100 * century + 4 * cycle + year : Nat)) % 400 =
      (100 * century + 4 * cycle + year : Nat) := by omega
  have eraOfYear : (era * 400 + (100 * century + 4 * cycle + year : Nat)) / 400 = era := by omega
  rw [same, toDay_ofMarch _ dayLe, yearOfEra, eraOfYear, Int.toNat_natCast]
  have fourths : (100 * century + 4 * cycle + year) / 4 = 25 * century + cycle := by omega
  have hundredths : (100 * century + 4 * cycle + year) / 100 = century := by omega
  rw [fourths, hundredths]
  omega

theorem valid_ofDay (n : Int) : (ofDay n).Valid := by
  obtain ⟨era, century, cycle, year, day, centuryLe, cycleLe, yearLe, dayLe, leap, sum, same⟩ := reckoning n
  rw [same]
  refine valid_ofMarch dayLe fun last => ?_
  obtain ⟨lastYear, lastCycle⟩ := leap last
  have fourth : (era * 400 + (100 * century + 4 * cycle + year : Nat) + 1) % 4 = 0 := by omega
  have centennial : (era * 400 + (100 * century + 4 * cycle + year : Nat) + 1) % 100 = 0 →
      (era * 400 + (100 * century + 4 * cycle + year : Nat) + 1) % 400 = 0 := by omega
  rw [isLeapYear, decide_eq_true fourth, Bool.true_and, Bool.or_eq_true]
  by_cases hundred : (era * 400 + (100 * century + 4 * cycle + year : Nat) + 1) % 100 = 0
  · exact .inr (decide_eq_true (centennial hundred))
  · exact .inl (decide_eq_true hundred)

/-- The years of the days on which instants lie. -/
theorem year_ofDay {n : Int} (range : -96465292 ≤ n ∧ n ≤ 95026236) :
    -262143 ≤ (ofDay n).year ∧ (ofDay n).year ≤ 262142 := by
  obtain ⟨era, century, cycle, year, day, centuryLe, cycleLe, yearLe, dayLe, leap, sum, same⟩ := reckoning n
  rw [epoch] at sum
  have eras : -656 ≤ era ∧ era ≤ 655 := by omega
  have first : era = -656 → 2 ≤ century ∧ (century = 2 → 14 ≤ cycle ∧ (cycle = 14 → year = 0 → 306 ≤ day)) := by omega
  have last : era = 655 → century ≤ 1 ∧
      (century = 1 → cycle ≤ 10 ∧ (cycle = 10 → year ≤ 2 ∧ (year = 2 → day ≤ 305))) := by
    omega
  rw [same, ofMarch]
  dsimp only
  split <;> omega

end DialMenu.Date
