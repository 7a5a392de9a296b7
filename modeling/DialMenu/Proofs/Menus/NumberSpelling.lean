import DialMenu.Proofs.Menus.GuardianList
import DialMenu.Proofs.Numeral

/-!
The spellings of a phone number in the check of a new guardian. A number may be written with a `+` in front or without
one, and the check compares numbers as they are written. So what it accepts is never a number of the user or of a
guardian in the spelling in which that is known, but it may be the same number in the other spelling.
-/

namespace DialMenu

/-- A text without blanks stays as it is. -/
theorem Text.trim_of_visible {s : String} (visible : ∀ c ∈ s.toList, isBlank c = false) : trim s = s := by
  have front : s.toList.dropWhile isBlank = s.toList :=
    List.dropWhile_eq_self_iff.2 fun _ => by simp [visible _ (List.getElem_mem _)]
  have back : s.toList.rdropWhile isBlank = s.toList :=
    List.rdropWhile_eq_self_iff.2 fun _ => by simp [visible _ (List.getLast_mem _)]
  rw [trim, trimmed_eq, front, back, String.ofList_toList]

namespace Menus.Guardians

/-- The number without the `+` in front of it, if it has one. -/
def digits (number : String) : List Char :=
  match number.toList with
  | '+' :: cs => cs
  | cs => cs

/-- The other spelling of a number: without the `+` in front if it has one, and with one if it has none. -/
def respelled (number : String) : String :=
  match number.toList with
  | '+' :: cs => String.ofList cs
  | cs => String.ofList ('+' :: cs)

/-- The numbers that a new guardian has to differ from. -/
def knownNumbers (s : Subscriber) : List String := s.phone :: s.user.guardians

/-- The user or one of the guardians has a number with the same digits. -/
def Known (s : Subscriber) (number : String) : Prop := ∃ known ∈ knownNumbers s, digits known = digits number

/-- However a number is spelled, it is refused if it is known. -/
def RefusesKnown (s : Subscriber) : Prop :=
  ∀ event : Event, Known s (Text.trim event.input) → isValidGuardian s event = false

section Spelling

variable {number : String} {ds : List Char}

theorem digits_eq_iff (plain : ds.head? ≠ some '+') :
    digits number = ds ↔ number.toList = ds ∨ number.toList = '+' :: ds := by
  unfold digits
  split
  · rename_i cs signed
    rw [signed]
    constructor
    · rintro rfl
      exact .inr rfl
    · rintro (rfl | same)
      · exact absurd rfl plain
      · exact (List.cons.inj same).2
  · rename_i unsigned
    exact ⟨.inl, fun either => either.resolve_right (unsigned ds)⟩

theorem respelled_eq (plain : ds.head? ≠ some '+') (written : number.toList = ds ∨ number.toList = '+' :: ds) :
    (number.toList = ds ∧ (respelled number).toList = '+' :: ds) ∨
      (number.toList = '+' :: ds ∧ (respelled number).toList = ds) := by
  unfold respelled
  rcases written with unsigned | signed
  · refine .inl ⟨unsigned, ?_⟩
    split
    · rename_i same
      rw [unsigned.symm.trans same] at plain
      exact absurd rfl plain
    · rw [String.toList_ofList, unsigned]
  · exact .inr ⟨signed, by simp [signed]⟩

/-- The digits of a phone number, and its two spellings. -/
theorem exists_digits (wellFormed : PhoneNumber number) : ∃ ds : List Char, ds.head? ≠ some '+' ∧
    9 ≤ ds.length ∧ ds.length ≤ 15 ∧ (∀ c ∈ ds, c.isDigit = true) ∧
      ((number.toList = ds ∧ (respelled number).toList = '+' :: ds) ∨
        (number.toList = '+' :: ds ∧ (respelled number).toList = ds)) := by
  obtain ⟨ds, written, long, short, all⟩ := wellFormed
  have plain : ds.head? ≠ some '+' := fun sign => absurd (all '+' (List.mem_of_head? sign)) (by decide)
  exact ⟨ds, plain, long, short, all, respelled_eq plain written⟩

theorem digits_eq_digits_iff (wellFormed : PhoneNumber number) {known : String} :
    digits known = digits number ↔ known = number ∨ known = respelled number := by
  obtain ⟨ds, plain, -, -, -, spellings⟩ := exists_digits wellFormed
  have own : digits number = ds := (digits_eq_iff plain).2 (spellings.imp And.left And.left)
  rw [own, digits_eq_iff plain, ← String.toList_inj, ← String.toList_inj]
  rcases spellings with ⟨unsigned, other⟩ | ⟨signed, other⟩
  · rw [unsigned, other]
  · rw [signed, other, or_comm]

theorem phoneNumber_respelled (wellFormed : PhoneNumber number) : PhoneNumber (respelled number) := by
  obtain ⟨ds, -, long, short, all, spellings⟩ := exists_digits wellFormed
  exact ⟨ds, (spellings.imp And.right And.right).symm, long, short, all⟩

theorem respelled_respelled (wellFormed : PhoneNumber number) : respelled (respelled number) = number := by
  obtain ⟨ds, plain, -, -, -, spellings⟩ := exists_digits wellFormed
  rcases spellings with ⟨unsigned, other⟩ | ⟨signed, other⟩
  · rcases respelled_eq plain (.inr other) with ⟨same, -⟩ | ⟨-, back⟩
    · exact absurd (congrArg List.length (same.symm.trans other)) (by simp)
    · exact String.toList_inj.1 (back.trans unsigned.symm)
  · rcases respelled_eq plain (.inl other) with ⟨-, back⟩ | ⟨same, -⟩
    · exact String.toList_inj.1 (back.trans signed.symm)
    · exact absurd (congrArg List.length (same.symm.trans other)) (by simp)

theorem trim_phoneNumber (wellFormed : PhoneNumber number) : Text.trim number = number := by
  obtain ⟨ds, written, -, -, all⟩ := wellFormed
  refine Text.trim_of_visible fun c mem => ?_
  rcases written with unsigned | signed
  · exact Text.isBlank_of_isDigit (all c (unsigned ▸ mem))
  · rw [signed] at mem
    rcases List.mem_cons.1 mem with rfl | digit
    · decide
    · exact Text.isBlank_of_isDigit (all c digit)

end Spelling

variable {s : Subscriber}

theorem known_iff {number : String} (wellFormed : PhoneNumber number) :
    Known s number ↔ number ∈ knownNumbers s ∨ respelled number ∈ knownNumbers s := by
  simp only [Known, digits_eq_digits_iff wellFormed, and_or_left, exists_or, exists_eq_right]

theorem isValidGuardian_iff_not_mem {event : Event} : isValidGuardian s event = true ↔
    PhoneNumber (Text.trim event.input) ∧ Text.trim event.input ∉ knownNumbers s := by
  rw [isValidGuardian_iff, knownNumbers, List.mem_cons, not_or]
  exact ⟨fun ⟨wellFormed, notOwn, fresh⟩ => ⟨wellFormed, notOwn, fresh⟩,
    fun ⟨wellFormed, notOwn, fresh⟩ => ⟨wellFormed, notOwn, fresh⟩⟩

/-- What is accepted although it is known is a phone number in the other spelling. -/
theorem accepts_known_iff {event : Event} : isValidGuardian s event = true ∧ Known s (Text.trim event.input) ↔
    PhoneNumber (Text.trim event.input) ∧ Text.trim event.input ∉ knownNumbers s ∧
      respelled (Text.trim event.input) ∈ knownNumbers s := by
  rw [isValidGuardian_iff_not_mem]
  constructor
  · rintro ⟨⟨wellFormed, fresh⟩, known⟩
    exact ⟨wellFormed, fresh, ((known_iff wellFormed).1 known).resolve_left fresh⟩
  · rintro ⟨wellFormed, fresh, other⟩
    exact ⟨⟨wellFormed, fresh⟩, (known_iff wellFormed).2 (.inr other)⟩

/-- Every number that is known is refused in all its spellings exactly if each is known in both of them. -/
theorem refusesKnown_iff : RefusesKnown s ↔
    ∀ known ∈ knownNumbers s, PhoneNumber known → respelled known ∈ knownNumbers s := by
  constructor
  · intro refuses known mem wellFormed
    have other := phoneNumber_respelled wellFormed
    let event : Event := { kind := .transit, input := respelled known }
    have entered : Text.trim event.input = respelled known := trim_phoneNumber other
    by_contra fresh
    have accepted : isValidGuardian s event = true ∧ Known s (Text.trim event.input) := by
      rw [accepts_known_iff, entered, respelled_respelled wellFormed]
      exact ⟨other, fresh, mem⟩
    have refused := refuses event accepted.2
    rw [accepted.1] at refused
    cases refused
  · intro both event known
    by_contra accepted
    obtain ⟨wellFormed, fresh, other⟩ := accepts_known_iff.1 ⟨Bool.of_not_eq_false accepted, known⟩
    have back := both _ other (phoneNumber_respelled wellFormed)
    rw [respelled_respelled wellFormed] at back
    exact fresh back

/-- The check compares numbers as they are written: it accepts a number that is known exactly if that is a phone number
in the one spelling in which it is not known. So it refuses all that is known only where every phone number that is
known is known with a `+` and without one. -/
theorem isValidGuardian_respelled (s : Subscriber) :
    (∀ event : Event, isValidGuardian s event = true ∧ Known s (Text.trim event.input) ↔
      PhoneNumber (Text.trim event.input) ∧ Text.trim event.input ∉ knownNumbers s ∧
        respelled (Text.trim event.input) ∈ knownNumbers s) ∧
    (RefusesKnown s ↔ ∀ known ∈ knownNumbers s, PhoneNumber known → respelled known ∈ knownNumbers s) :=
  ⟨fun _ => accepts_known_iff, refusesKnown_iff⟩

/-- The user's own number, without its `+`. -/
example : isValidGuardian { user.account.phone := "+254700000001" } { kind := .transit, input := "254700000001" } =
    true := by decide

end Menus.Guardians

end DialMenu
