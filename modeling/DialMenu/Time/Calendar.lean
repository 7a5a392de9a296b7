/-!
The proleptic Gregorian calendar: dates and day numbers, day 0 being 1970-01-01. Years begin in March
for the reckoning, so that a leap day is the last day of its year.
-/

namespace DialMenu

structure Date where
  year : Int
  month : Nat
  day : Nat
deriving DecidableEq, Inhabited

namespace Date

def isLeapYear (year : Int) : Bool := year % 4 = 0 && (year % 100 ≠ 0 || year % 400 = 0)

def daysInMonth (year : Int) (month : Nat) : Nat :=
  if month = 2 then (if isLeapYear year then 29 else 28)
  else if month = 4 ∨ month = 6 ∨ month = 9 ∨ month = 11 then 30
  else 31

/-- The date exists in the calendar. -/
def Valid (d : Date) : Prop := 1 ≤ d.month ∧ d.month ≤ 12 ∧ 1 ≤ d.day ∧ d.day ≤ daysInMonth d.year d.month

instance (d : Date) : Decidable d.Valid := inferInstanceAs (Decidable (_ ∧ _ ∧ _ ∧ _))

/-- Days from 0000-03-01 to 1970-01-01. -/
def epoch : Int := 719468

/-- The day number of a date. -/
def toDay (d : Date) : Int :=
  let year := if d.month ≤ 2 then d.year - 1 else d.year
  let month := (d.month + 9) % 12
  let yearOfEra := (year % 400).toNat
  let dayOfYear := (153 * month + 2) / 5 + (d.day - 1)
  year / 400 * 146097 + (yearOfEra * 365 + yearOfEra / 4 - yearOfEra / 100 + dayOfYear : Nat) - epoch

/-- The date of a day number: whole eras of 400 years, then centuries, then leap cycles, then years. -/
def ofDay (n : Int) : Date :=
  let era := (n + epoch) / 146097
  let dayOfEra := ((n + epoch) % 146097).toNat
  let century := min 3 (dayOfEra / 36524)
  let dayOfCentury := dayOfEra - 36524 * century
  let cycle := dayOfCentury / 1461
  let dayOfCycle := dayOfCentury - 1461 * cycle
  let yearOfCycle := min 3 (dayOfCycle / 365)
  let dayOfYear := dayOfCycle - 365 * yearOfCycle
  let month := (5 * dayOfYear + 2) / 153
  let year := era * 400 + (100 * century + 4 * cycle + yearOfCycle : Nat)
  { year := if month < 10 then year else year + 1
    month := if month < 10 then month + 3 else month - 9
    day := dayOfYear - (153 * month + 2) / 5 + 1 }

end Date

end DialMenu
