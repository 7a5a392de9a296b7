import DialMenu.Text.Basic
import DialMenu.Time.Instant

/-!
The written form of instants, after RFC 3339. Writing uses UTC, a fraction of 0, 3, 6 or 9 digits and a
sign for years of more than four digits or before year 0. Reading takes any offset and is lenient about
blanks between the parts and about missing leading zeros.
-/

namespace DialMenu.Timestamp

/-- Four digits; beyond the four digit years a sign and at least four digits. -/
def writeYear (year : Int) : List Char :=
  if 0 ≤ year ∧ year ≤ 9999 then Numeral.padded 4 year.toNat
  else (if year < 0 then '-' else '+') :: Numeral.padded 4 year.natAbs

/-- The shortest of 0, 3, 6 and 9 digits that is exact. -/
def writeFraction (nano : Nat) : List Char :=
  if nano = 0 then []
  else if nano % 1000000 = 0 then '.' :: Numeral.padded 3 (nano / 1000000)
  else if nano % 1000 = 0 then '.' :: Numeral.padded 6 (nano / 1000)
  else '.' :: Numeral.padded 9 nano

def writeChars (t : Instant) : List Char :=
  let date := Date.ofDay (t.second / 86400)
  let time := (t.second % 86400).toNat
  let leap := if t.isLeap then 1 else 0
  writeYear date.year ++ '-' :: Numeral.padded 2 date.month ++ '-' :: Numeral.padded 2 date.day ++
    'T' :: Numeral.padded 2 (time / 3600) ++ ':' :: Numeral.padded 2 (time / 60 % 60) ++
    ':' :: Numeral.padded 2 (time % 60 + leap) ++ writeFraction (t.nano % 1000000000) ++ ['Z']

def write (t : Instant) : String := String.ofList (writeChars t)

/-- A number of one to `width` digits. -/
def number (width : Nat) (cs : List Char) : Option (Nat × List Char) :=
  match (cs.take width).takeWhile Char.isDigit with
  | [] => none
  | digits => some (Numeral.value digits, cs.drop digits.length)

/-- A number after blanks. -/
def field (width : Nat) (cs : List Char) : Option (Nat × List Char) := number width (Text.skipBlanks cs)

/-- Blanks and then the character `c`. -/
def mark (c : Char) (cs : List Char) : Option (List Char) :=
  match Text.skipBlanks cs with
  | d :: rest => if d = c then some rest else none
  | [] => none

/-- Without a sign a year has up to four digits, with one any number of them. -/
def year (cs : List Char) : Option (Int × List Char) :=
  match Text.skipBlanks cs with
  | '-' :: rest => (number rest.length rest).map fun (n, rest) => (-(n : Int), rest)
  | '+' :: rest => (number rest.length rest).map fun (n, rest) => ((n : Int), rest)
  | rest => (number 4 rest).map fun (n, rest) => ((n : Int), rest)

/-- Nanoseconds after an optional point: nine digits, with zeros for those that are missing. Digits after the
ninth are dropped. -/
def fraction : List Char → Option (Nat × List Char)
  | '.' :: cs =>
    match cs.takeWhile Char.isDigit with
    | [] => none
    | digits =>
      let missing := List.replicate (9 - digits.length) '0'
      some (Numeral.value (digits.take 9 ++ missing), cs.drop digits.length)
  | cs => some (0, cs)

/-- Hours and minutes after a sign, in seconds. Colons and blanks may stand between them. -/
def signedOffset (sign : Int) : List Char → Option (Int × List Char)
  | h :: h' :: rest =>
    match rest.dropWhile fun c => c = ':' || Text.isBlank c with
    | m :: m' :: rest =>
      if h.isDigit ∧ h'.isDigit ∧ m.isDigit ∧ m'.isDigit ∧ Numeral.value [m, m'] < 60 ∧ Numeral.value [h, h'] < 24 then
        some (sign * (Numeral.value [h, h'] * 3600 + Numeral.value [m, m'] * 60 : Nat), rest)
      else none
    | _ => none
  | _ => none

/-- The distance to UTC: `Z`, `UTC`, or a sign with hours and minutes. -/
def offset : List Char → Option (Int × List Char)
  | 'Z' :: rest | 'z' :: rest => some (0, rest)
  | '+' :: rest => signedOffset 1 rest
  | '-' :: rest | '−' :: rest => signedOffset (-1) rest
  | u :: t :: c :: rest =>
    if u.toUpper = 'U' ∧ t.toUpper = 'T' ∧ c.toUpper = 'C' then some (0, rest) else none
  | _ => none

/-- The instant of a date and a time of day at a distance to UTC. Second 60 is a leap second. -/
def assemble (date : Date) (hour minute second nano : Nat) (offset : Int) : Option Instant :=
  if date.Valid ∧ -262143 ≤ date.year ∧ date.year ≤ 262142 ∧ hour < 24 ∧ minute < 60 ∧ second ≤ 60 then
    let leap := if second = 60 then 1000000000 else 0
    Instant.ofParts? (date.toDay * 86400 + (hour * 3600 + minute * 60 + min second 59 : Nat) - offset) (nano + leap)
  else none

/-- What stands between the date and the time of day. -/
def separator : List Char → Option (List Char)
  | 'T' :: cs | 't' :: cs | ' ' :: cs => some cs
  | _ => none

def readChars (cs : List Char) : Option Instant := do
  let (year, cs) ← year cs
  let cs ← mark '-' cs
  let (month, cs) ← field 2 cs
  let cs ← mark '-' cs
  let (day, cs) ← field 2 cs
  let cs ← separator cs
  let (hour, cs) ← field 2 cs
  let cs ← mark ':' cs
  let (minute, cs) ← field 2 cs
  let cs ← mark ':' cs
  let (second, cs) ← field 2 cs
  let (nano, cs) ← fraction cs
  let (offset, cs) ← offset (Text.skipBlanks cs)
  if Text.skipBlanks cs = [] then assemble ⟨year, month, day⟩ hour minute second nano offset else none

def read (s : String) : Option Instant := readChars s.toList

end DialMenu.Timestamp
