import DialMenu.Time.Calendar
import DialMenu.Time.Duration

/-!
Points in time: a second of the UTC calendar with its nanoseconds. A leap second is the second half of the range of
nanoseconds; it may follow any second, but only at the last second of a minute is it written and read as one. Instants
end on the last day of year 262142; a move in time, by a duration or by a span, says when it leaves that range, and
saturates on request.
-/

namespace DialMenu

structure Instant where
  /-- Seconds since 1970-01-01T00:00:00Z, leap seconds not counted. -/
  second : Int
  nano : Nat
  second_mem : -8334601228800 ≤ second ∧ second ≤ 8210266876799
  nano_lt : nano < 2000000000
deriving DecidableEq

namespace Instant

/-- The instant with these parts, if there is one. -/
def ofParts? (second : Int) (nano : Nat) : Option Instant :=
  if range : -8334601228800 ≤ second ∧ second ≤ 8210266876799 then
    if parts : nano < 2000000000 then some ⟨second, nano, range, parts⟩ else none
  else none

theorem ofParts?_self (t : Instant) : ofParts? t.second t.nano = some t := by
  rw [ofParts?, dif_pos t.second_mem, dif_pos t.nano_lt]

theorem ofParts?_eq_some_iff {second : Int} {nano : Nat} {t : Instant} :
    ofParts? second nano = some t ↔ t.second = second ∧ t.nano = nano := by
  constructor
  · unfold ofParts?
    split
    · split
      · rintro ⟨⟩
        exact ⟨rfl, rfl⟩
      · nofun
    · nofun
  · rintro ⟨rfl, rfl⟩
    exact ofParts?_self t

/-- The last instant that is not a leap second. -/
def latest : Instant := ⟨8210266876799, 999999999, by decide, by decide⟩

def epoch : Instant := ⟨0, 0, by decide, by decide⟩

instance : Inhabited Instant := ⟨epoch⟩

instance : LT Instant := ⟨fun a b => a.second < b.second ∨ a.second = b.second ∧ a.nano < b.nano⟩

instance : LE Instant := ⟨fun a b => a.second < b.second ∨ a.second = b.second ∧ a.nano ≤ b.nano⟩

instance (a b : Instant) : Decidable (a < b) := inferInstanceAs (Decidable (_ ∨ _ ∧ _))

instance (a b : Instant) : Decidable (a ≤ b) := inferInstanceAs (Decidable (_ ∨ _ ∧ _))

theorem lt_iff {a b : Instant} : a < b ↔ a.second < b.second ∨ a.second = b.second ∧ a.nano < b.nano := Iff.rfl

theorem le_iff {a b : Instant} : a ≤ b ↔ a.second < b.second ∨ a.second = b.second ∧ a.nano ≤ b.nano := Iff.rfl

theorem not_lt_iff {a b : Instant} : ¬ a < b ↔ b ≤ a := by
  rw [lt_iff, le_iff]
  omega

def isLeap (t : Instant) : Bool := 1000000000 ≤ t.nano

/-- A leap second comes at the end of a minute only. -/
def Regular (t : Instant) : Prop := t.nano < 1000000000 ∨ t.second % 60 = 59

instance (t : Instant) : Decidable t.Regular := inferInstanceAs (Decidable (_ ∨ _))

/-- The instant after `d` has passed, if it is not too late to be one. A leap second that the duration
leaves counts as the second before it. -/
def add? (t : Instant) (d : Duration) : Option Instant :=
  if t.isLeap ∧ d.seconds = 0 ∧ t.nano + d.nanos < 2000000000 then
    ofParts? t.second (t.nano + d.nanos)
  else
    let nano := t.nano % 1000000000 + d.nanos
    ofParts? (t.second + d.seconds.toNat + (nano / 1000000000 : Nat)) (nano % 1000000000)

/-- The instant after `d` has passed, or the latest one. -/
def addSaturating (t : Instant) (d : Duration) : Instant := (t.add? d).getD latest

/-- The calendar year. -/
def year (t : Instant) : Int := (Date.ofDay (t.second / 86400)).year

end Instant

/-- Whole seconds with a sign, by which an instant is moved. The milliseconds of a span have to fit into 64 bits, so a
count of seconds may be too large for one. -/
structure Span where
  seconds : Int
  milliseconds_mem : -9223372036854775807 ≤ seconds * 1000 ∧ seconds * 1000 ≤ 9223372036854775807
deriving DecidableEq

namespace Span

/-- The same number with a sign, if 64 bits have room for both. -/
def signed? (n : UInt64) : Option Int64 :=
  if n.toNat < 9223372036854775808 then some (.ofNat n.toNat) else none

/-- The span of so many seconds, if its milliseconds can be counted. -/
def ofSeconds? (n : Int64) : Option Span :=
  if countable : -9223372036854775807 ≤ n.toInt * 1000 ∧ n.toInt * 1000 ≤ 9223372036854775807 then
    some ⟨n.toInt, countable⟩
  else none

end Span

/-- The instant that lies a span away, if there is one. A leap second that is left counts as the second before it on
the way forward, and as the second after it on the way back. -/
def Instant.shift? (t : Instant) (span : Span) : Option Instant :=
  if t.isLeap then
    if span.seconds = 0 then some t
    else ofParts? (t.second + span.seconds + if span.seconds < 0 then 1 else 0) (t.nano - 1000000000)
  else ofParts? (t.second + span.seconds) t.nano

end DialMenu
