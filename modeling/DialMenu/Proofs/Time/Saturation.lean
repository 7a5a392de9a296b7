import DialMenu.Time.Instant
import Mathlib.Data.Int.Order.Basic

/-!
Instants after a duration. Away from leap seconds an instant is a number of nanoseconds, and saturating addition is
addition of these numbers up to the latest instant. A duration of no time leaves every instant where it is. A span of
whole seconds forward is a duration, and leads to the same instant.
-/

namespace DialMenu

namespace Span

/-- What fits is converted to the same number, and what is converted fits. -/
theorem signed?_eq_some_iff {n : UInt64} {m : Int64} : signed? n = some m ↔ m.toInt = n.toNat := by
  have exact (small : n.toNat < 9223372036854775808) : (Int64.ofNat n.toNat).toInt = n.toNat :=
    Int64.toInt_ofNat_of_lt small
  unfold signed?
  split
  · rename_i small
    rw [Option.some_inj, ← Int64.toInt_inj, exact small, eq_comm]
  · rename_i large
    have bound := m.toInt_lt
    exact iff_of_false nofun fun same => large (by omega)

/-- A span has the seconds that it was made of, and it is made of all seconds that a span can have. -/
theorem ofSeconds?_eq_some_iff {n : Int64} {span : Span} : ofSeconds? n = some span ↔ span.seconds = n.toInt := by
  unfold ofSeconds?
  split
  · rw [Option.some_inj, mk.injEq, eq_comm]
  · rename_i large
    exact iff_of_false nofun fun same => large (same ▸ span.milliseconds_mem)

end Span

namespace Instant

/-- The nanoseconds since 1970-01-01T00:00:00Z. A leap second has those of the second that follows it. -/
def ticks (t : Instant) : Int := t.second * 1000000000 + t.nano

variable {t u : Instant} {d : Duration}

theorem le_refl (t : Instant) : t ≤ t := .inr ⟨rfl, Nat.le_refl _⟩

theorem le_trans {v : Instant} (first : t ≤ u) (second : u ≤ v) : t ≤ v := by
  rw [le_iff] at first second ⊢
  omega

theorem lt_of_le_of_lt {v : Instant} (first : t ≤ u) (second : u < v) : t < v := by
  rw [le_iff] at first
  rw [lt_iff] at second ⊢
  omega

theorem nano_lt_of_plain (plain : t.isLeap = false) : t.nano < 1000000000 := by
  simpa [isLeap] using plain

/-- Away from leap seconds time runs as the nanoseconds do. -/
theorem lt_iff_ticks (plain : t.isLeap = false) (plain' : u.isLeap = false) : t < u ↔ t.ticks < u.ticks := by
  have small := nano_lt_of_plain plain
  have small' := nano_lt_of_plain plain'
  rw [lt_iff, ticks, ticks]
  omega

/-- Away from leap seconds the nanoseconds tell instants apart. -/
theorem eq_iff_ticks (plain : t.isLeap = false) (plain' : u.isLeap = false) : t = u ↔ t.ticks = u.ticks := by
  refine ⟨congrArg ticks, fun same => ?_⟩
  have small := nano_lt_of_plain plain
  have small' := nano_lt_of_plain plain'
  rw [ticks, ticks] at same
  obtain ⟨second, nano⟩ : t.second = u.second ∧ t.nano = u.nano := by omega
  cases t
  cases u
  cases second
  cases nano
  rfl

theorem le_iff_ticks (plain : t.isLeap = false) (plain' : u.isLeap = false) : t ≤ u ↔ t.ticks ≤ u.ticks := by
  rw [← not_lt_iff, lt_iff_ticks plain' plain, Int.not_lt]

theorem isLeap_latest : latest.isLeap = false := rfl

theorem le_latest (plain : t.isLeap = false) : t ≤ latest := by
  have small := nano_lt_of_plain plain
  have bound := t.second_mem.2
  rw [le_iff]
  dsimp only [latest]
  omega

/-- Away from leap seconds the seconds and the nanoseconds are added, and what is above a second is carried over. -/
theorem add?_of_plain (plain : t.isLeap = false) (d : Duration) :
    t.add? d = ofParts? (t.second + d.seconds.toNat + ((t.nano + d.nanos) / 1000000000 : Nat))
      ((t.nano + d.nanos) % 1000000000) := by
  rw [add?, if_neg (by simp [plain]), Nat.mod_eq_of_lt (nano_lt_of_plain plain)]

/-- The sum in nanoseconds, or the latest instant if that is smaller. -/
theorem ticks_addSaturating (plain : t.isLeap = false) (d : Duration) :
    (t.addSaturating d).ticks = min (t.ticks + d.total) latest.ticks := by
  have earliest := t.second_mem.1
  have fraction : (t.nano + d.nanos.val) % 1000000000 < 1000000000 := Nat.mod_lt _ (by decide)
  have last : latest.ticks = 8210266876799999999999 := rfl
  rw [addSaturating, add?_of_plain plain, ofParts?, last]
  by_cases early : t.second + d.seconds.toNat + ((t.nano + d.nanos) / 1000000000 : Nat) ≤ 8210266876799
  · have sum : t.ticks + d.total ≤ 8210266876799999999999 := by
      rw [ticks, Duration.total]
      omega
    rw [dif_pos ⟨by omega, early⟩, dif_pos (by omega), Option.getD_some, min_eq_left sum]
    simp only [ticks, Duration.total]
    omega
  · have late : 8210266876799999999999 ≤ t.ticks + d.total := by
      rw [ticks, Duration.total]
      omega
    rw [dif_neg fun range => early range.2, Option.getD_none, min_eq_right late, last]

theorem isLeap_addSaturating (plain : t.isLeap = false) (d : Duration) : (t.addSaturating d).isLeap = false := by
  have fraction : (t.nano + d.nanos.val) % 1000000000 < 1000000000 := Nat.mod_lt _ (by decide)
  rw [addSaturating]
  cases sum : t.add? d with
  | none => exact isLeap_latest
  | some later =>
    rw [add?_of_plain plain, ofParts?_eq_some_iff] at sum
    rw [Option.getD_some, isLeap, sum.2, decide_eq_false_iff_not]
    exact Nat.not_le_of_lt fraction

/-- Before the end of a lifetime means before its nanoseconds are over, and before the latest instant. -/
theorem lt_addSaturating_iff (plain : t.isLeap = false) (plain' : u.isLeap = false) (d : Duration) :
    u < t.addSaturating d ↔ u.ticks < min (t.ticks + d.total) latest.ticks := by
  rw [lt_iff_ticks plain' (isLeap_addSaturating plain d), ticks_addSaturating plain]

/-- Away from leap seconds the whole seconds are added, and there is a result wherever that sum is an instant. -/
theorem shift?_eq_some_iff {span : Span} (plain : t.isLeap = false) :
    t.shift? span = some u ↔ u.isLeap = false ∧ u.ticks = t.ticks + span.seconds * 1000000000 := by
  have small := nano_lt_of_plain plain
  rw [shift?, if_neg (Bool.eq_false_iff.1 plain), ofParts?_eq_some_iff, ticks, ticks]
  constructor
  · rintro ⟨second, nano⟩
    rw [isLeap, second, nano]
    exact ⟨plain, by omega⟩
  · rintro ⟨plain', sum⟩
    have small' := nano_lt_of_plain plain'
    omega

/-- Whole seconds forward lead to the same instant as a span and as a duration, also from a leap second. -/
theorem shift?_eq_add? {span : Span} {seconds : UInt64} (same : span.seconds = seconds.toNat) :
    t.shift? span = t.add? (.ofSeconds seconds) := by
  have none : ((Duration.ofSeconds seconds).nanos : Nat) = 0 := rfl
  have whole : (Duration.ofSeconds seconds).seconds = seconds := rfl
  rw [shift?, add?, none, whole, same]
  by_cases leap : t.isLeap
  · have late : 1000000000 ≤ t.nano := by simpa [isLeap] using leap
    have short := t.nano_lt
    by_cases stays : seconds = 0
    · rw [if_pos leap, if_pos (by rw [stays]; rfl), if_pos ⟨leap, stays, short⟩, Nat.add_zero, ofParts?_self]
    · have moves : (seconds.toNat : Int) ≠ 0 := fun zero => stays (UInt64.toNat_inj.1 (Int.ofNat.inj zero))
      have nano : t.nano % 1000000000 = t.nano - 1000000000 := by omega
      have carried : (((t.nano - 1000000000) / 1000000000 : Nat) : Int) = 0 := by omega
      rw [if_pos leap, if_neg moves, if_neg (by omega), if_neg fun stay => stays stay.2.1]
      dsimp only
      rw [Nat.add_zero, nano, carried, Nat.mod_eq_of_lt (by omega)]
  · have small := nano_lt_of_plain (Bool.eq_false_iff.2 leap)
    have carried : ((t.nano / 1000000000 : Nat) : Int) = 0 := by omega
    rw [if_neg leap, if_neg fun stay => leap stay.1]
    dsimp only
    rw [Nat.add_zero, Nat.mod_eq_of_lt small, carried, Nat.mod_eq_of_lt small, Int.add_zero]

/-- No time at all leaves an instant, and also a leap second. -/
theorem addSaturating_zero (t : Instant) : t.addSaturating .zero = t := by
  let still : Span := ⟨0, by decide⟩
  have stays : t.shift? still = some t := by
    unfold shift?
    split
    · rfl
    · exact (congrArg (ofParts? · t.nano) (Int.add_zero t.second)).trans (ofParts?_self t)
  have same : t.shift? still = t.add? .zero := shift?_eq_add? rfl
  rw [addSaturating, ← same, stays, Option.getD_some]

/-- What is too long for a span is longer than the whole calendar. -/
theorem add?_of_uncountable {seconds : UInt64} (long : 9223372036854775807 < seconds.toNat * 1000) (t : Instant) :
    t.add? (.ofSeconds seconds) = none := by
  have earliest := t.second_mem.1
  have whole : (Duration.ofSeconds seconds).seconds = seconds := rfl
  have moves : seconds ≠ 0 := by
    intro none
    have zero : seconds.toNat = 0 := congrArg UInt64.toNat none
    omega
  rw [add?, whole, if_neg fun stay => moves stay.2.1, Option.eq_none_iff_forall_ne_some]
  intro later sum
  have latest := later.second_mem.2
  have moved := (ofParts?_eq_some_iff.1 sum).1
  omega

/-- Whatever lasts a second ends later, unless time itself does not go on. -/
theorem lt_addSaturating (lasts : 0 < d.seconds) (early : t < latest) : t < t.addSaturating d := by
  have seconds : 0 < d.seconds.toNat := UInt64.lt_iff_toNat_lt.1 lasts
  have some' : d.seconds ≠ 0 := by
    rintro none
    rw [none] at seconds
    cases seconds
  unfold addSaturating
  cases sum : t.add? d with
  | none => exact early
  | some later =>
    rw [add?, if_neg fun short => some' short.2.1] at sum
    have moved := (ofParts?_eq_some_iff.1 sum).1
    rw [Option.getD_some, lt_iff]
    omega

end Instant

end DialMenu
