import DialMenu.Proofs.Time.Saturation
import DialMenu.Session.Basic
import Mathlib.Order.MinMax

/-!
The end of a conversation's lifetime. The lifetime is converted to a signed number, that number to a span, and the last
write is moved by the span; each of these steps can fail. The calendar is the tightest of the three limits. So the end
is the exact sum up to the latest instant, and it never comes earlier for a later write or for a longer lifetime.
-/

namespace DialMenu

/-- A count of seconds becomes the span of that length, and does so if there is a span of that length. -/
theorem Span.counted_iff {n : UInt64} {span : Span} :
    (signed? n).bind ofSeconds? = some span ↔ span.seconds = n.toNat := by
  constructor
  · intro counted
    obtain ⟨m, signed, spanned⟩ := Option.bind_eq_some_iff.1 counted
    exact (ofSeconds?_eq_some_iff.1 spanned).trans (signed?_eq_some_iff.1 signed)
  · intro same
    have bound := span.milliseconds_mem.2
    have exact : (Int64.ofNat n.toNat).toInt = n.toNat := Int64.toInt_ofNat_of_lt (by omega)
    refine Option.bind_eq_some_iff.2 ⟨.ofNat n.toNat, signed?_eq_some_iff.2 exact, ?_⟩
    exact ofSeconds?_eq_some_iff.2 (same.trans exact.symm)

namespace Session

variable {C : Type} {session : Session C}

theorem expiry?_eq_bind (session : Session C) :
    session.expiry? = ((Span.signed? session.lifetime).bind Span.ofSeconds?).bind session.updatedAt.shift? :=
  (Option.bind_assoc _ _ _).symm

/-- Away from leap seconds all three steps have a result exactly where the exact sum is an instant. -/
theorem expiry?_eq_some_iff (plain : session.updatedAt.isLeap = false) {t : Instant} : session.expiry? = some t ↔
    t.isLeap = false ∧ t.ticks = session.updatedAt.ticks + session.lifetime.toNat * 1000000000 := by
  rw [expiry?_eq_bind, Option.bind_eq_some_iff]
  constructor
  · rintro ⟨span, counted, moved⟩
    rw [← Span.counted_iff.1 counted]
    exact (Instant.shift?_eq_some_iff plain).1 moved
  · rintro ⟨plain', sum⟩
    -- A lifetime between two instants is no longer than the calendar, so it is a span.
    have short : (session.lifetime.toNat : Int) * 1000 ≤ 9223372036854775807 := by
      have earliest := session.updatedAt.second_mem.1
      have latest := t.second_mem.2
      have small := Instant.nano_lt_of_plain plain'
      rw [Instant.ticks, Instant.ticks] at sum
      omega
    let span : Span := ⟨session.lifetime.toNat, by omega⟩
    exact ⟨span, Span.counted_iff.2 rfl, (Instant.shift?_eq_some_iff plain).2 ⟨plain', sum⟩⟩

/-- Also from a leap second the three steps come to one addition. -/
theorem expiry?_eq (session : Session C) :
    session.expiry? = session.updatedAt.add? (.ofSeconds session.lifetime) := by
  rw [expiry?_eq_bind]
  cases counted : (Span.signed? session.lifetime).bind Span.ofSeconds? with
  | some span => exact Instant.shift?_eq_add? (Span.counted_iff.1 counted)
  | none =>
    have long : 9223372036854775807 < session.lifetime.toNat * 1000 := by
      by_contra short
      let span : Span := ⟨session.lifetime.toNat, by omega⟩
      have made : (Span.signed? session.lifetime).bind Span.ofSeconds? = some span := Span.counted_iff.2 rfl
      rw [counted] at made
      cases made
    exact (Instant.add?_of_uncountable long _).symm

theorem expiresAt_eq (session : Session C) :
    session.expiresAt = session.updatedAt.addSaturating (.ofSeconds session.lifetime) := by
  rw [expiresAt, expiry?_eq, Instant.addSaturating]

/-- A lifetime of a second or more ends after the last write, unless that was at the end of time. -/
theorem lt_expiresAt (lasts : 0 < session.lifetime) (early : session.updatedAt < .latest) :
    session.updatedAt < session.expiresAt := by
  rw [expiresAt_eq]
  exact Instant.lt_addSaturating lasts early

theorem isLeap_expiresAt (plain : session.updatedAt.isLeap = false) : session.expiresAt.isLeap = false := by
  rw [expiresAt_eq]
  exact Instant.isLeap_addSaturating plain _

/-- The exact sum in nanoseconds, or the latest instant if that is smaller. -/
theorem ticks_expiresAt (plain : session.updatedAt.isLeap = false) : session.expiresAt.ticks =
    min (session.updatedAt.ticks + session.lifetime.toNat * 1000000000) Instant.latest.ticks := by
  have whole : (Duration.ofSeconds session.lifetime).seconds = session.lifetime := rfl
  have none : ((Duration.ofSeconds session.lifetime).nanos : Nat) = 0 := rfl
  rw [expiresAt_eq, Instant.ticks_addSaturating plain, Duration.total, whole, none, Nat.add_zero, Int.natCast_mul]
  rfl

theorem le_expiresAt (plain : session.updatedAt.isLeap = false) : session.updatedAt ≤ session.expiresAt := by
  have last := (Instant.le_iff_ticks plain Instant.isLeap_latest).1 (Instant.le_latest plain)
  rw [Instant.le_iff_ticks plain (isLeap_expiresAt plain), ticks_expiresAt plain]
  exact le_min (by omega) last

/-- A later write and a longer lifetime never lead to an earlier end. -/
theorem expiresAt_mono {later : Session C} (plain : session.updatedAt.isLeap = false)
    (plain' : later.updatedAt.isLeap = false) (updated : session.updatedAt ≤ later.updatedAt)
    (longer : session.lifetime ≤ later.lifetime) : session.expiresAt ≤ later.expiresAt := by
  have start := (Instant.le_iff_ticks plain plain').1 updated
  have seconds := UInt64.le_iff_toNat_le.1 longer
  rw [Instant.le_iff_ticks (isLeap_expiresAt plain) (isLeap_expiresAt plain'), ticks_expiresAt plain,
    ticks_expiresAt plain']
  exact min_le_min_right _ (by omega)

/-- A lifetime that begins away from leap seconds ends at the exact sum if that is an instant, and else at the latest
instant: at the smaller of the two. So it never ends before it begins, nor earlier for a later beginning or a longer
time. -/
theorem expiresAt_saturates (session : Session C) (plain : session.updatedAt.isLeap = false) :
    (∀ t : Instant, session.expiry? = some t ↔
      t.isLeap = false ∧ t.ticks = session.updatedAt.ticks + session.lifetime.toNat * 1000000000) ∧
    (∀ t : Instant, session.expiresAt = t ↔ t.isLeap = false ∧
      t.ticks = min (session.updatedAt.ticks + session.lifetime.toNat * 1000000000) Instant.latest.ticks) ∧
    session.updatedAt ≤ session.expiresAt ∧
    ∀ later : Session C, later.updatedAt.isLeap = false → session.updatedAt ≤ later.updatedAt →
      session.lifetime ≤ later.lifetime → session.expiresAt ≤ later.expiresAt := by
  refine ⟨fun _ => expiry?_eq_some_iff plain, ?smaller, le_expiresAt plain, fun _ => expiresAt_mono plain⟩
  case smaller =>
    intro t
    rw [← ticks_expiresAt plain]
    constructor
    · rintro rfl
      exact ⟨isLeap_expiresAt plain, rfl⟩
    · rintro ⟨plain', same⟩
      exact (Instant.eq_iff_ticks (isLeap_expiresAt plain) plain').2 same.symm

end Session

/-- The last write lies one and a half seconds before the latest instant, up to a nanosecond. After one second there is
still an instant, after two there is none, nor after a lifetime that is no span or not even a signed number. -/
theorem expiresAt_saturates_lastSecond :
    let write : Instant := ⟨8210266876798, 500000000, by decide, by decide⟩
    let session (lifetime : UInt64) : Session Unit :=
      .fresh ⟨write, default, .inl (by decide)⟩ "ussd:session:tel" "demo" "first" () (.ofSeconds lifetime)
    (session 1).expiresAt = ⟨8210266876799, 500000000, by decide, by decide⟩ ∧ (session 2).expiresAt = .latest ∧
      write ≤ (session 0).expiresAt ∧ (session 1).expiresAt ≤ (session 9223372036854775807).expiresAt ∧
      (session 9223372036854775807).expiresAt ≤ (session 18446744073709551615).expiresAt := by
  intro write session
  have plain (lifetime : UInt64) : (session lifetime).updatedAt.isLeap = false := rfl
  obtain ⟨-, one, -, afterOne⟩ := (session 1).expiresAt_saturates rfl
  obtain ⟨-, two, -⟩ := (session 2).expiresAt_saturates rfl
  obtain ⟨-, -, zero, -⟩ := (session 0).expiresAt_saturates rfl
  obtain ⟨-, -, -, afterLong⟩ := (session 9223372036854775807).expiresAt_saturates rfl
  refine ⟨(one _).2 ⟨rfl, by decide⟩, (two _).2 ⟨rfl, by decide⟩, zero, ?_, ?_⟩
  · exact afterOne _ (plain _) (Instant.le_refl _) (by decide)
  · exact afterLong _ (plain _) (Instant.le_refl _) (by decide)

end DialMenu
