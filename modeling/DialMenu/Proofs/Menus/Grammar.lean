import DialMenu.Menus.Guardians
import DialMenu.Menus.ProfileMenu
import Mathlib.Data.List.DropRight
import Mathlib.Data.List.Infix

/-!
The texts that the menus take in, each as a grammar next to the check that decides it: phone numbers, names, places.
-/

namespace DialMenu

namespace Text

theorem trimmed_eq (cs : List Char) : trimmed cs = (cs.dropWhile isBlank).rdropWhile isBlank := rfl

/-- Nothing is left to trim off a trimmed text. -/
theorem trimmed_trimmed (cs : List Char) : trimmed (trimmed cs) = trimmed cs := by
  have front : (trimmed cs).dropWhile isBlank = trimmed cs := by
    refine List.dropWhile_eq_self_iff.2 fun nonempty => ?_
    have kept : trimmed cs <+: cs.dropWhile isBlank := List.rdropWhile_prefix _ _
    rw [kept.getElem nonempty]
    exact List.dropWhile_get_zero_not _ _ _
  rw [trimmed_eq (trimmed cs), front, trimmed_eq cs, List.rdropWhile_idempotent]

theorem trim_trim (s : String) : trim (trim s) = trim s := by
  rw [trim, trim, String.toList_ofList, trimmed_trimmed]

theorem utf8Size_of_isDigit {c : Char} (digit : c.isDigit = true) : c.utf8Size = 1 := by
  simp only [Char.isDigit, Bool.and_eq_true, decide_eq_true_eq] at digit
  exact Char.utf8Size_eq_one_iff.2 (UInt32.le_trans digit.2 (by decide))

/-- Every digit is one byte. -/
theorem utf8ByteSize_digits {cs : List Char} (digits : ∀ c ∈ cs, c.isDigit = true) :
    (String.ofList cs).utf8ByteSize = cs.length := by
  induction cs with
  | nil => rfl
  | cons c cs ih =>
    obtain ⟨first, later⟩ := List.forall_mem_cons.1 digits
    rw [String.ofList_cons, String.utf8ByteSize_append, String.utf8ByteSize_singleton, utf8Size_of_isDigit first,
      ih later, List.length_cons, Nat.add_comm]

end Text

namespace Menus

/-- At most one leading `+`, then 9 to 15 digits. -/
def PhoneNumber (s : String) : Prop :=
  ∃ digits : List Char, (s.toList = digits ∨ s.toList = '+' :: digits) ∧ 9 ≤ digits.length ∧ digits.length ≤ 15 ∧
    ∀ c ∈ digits, c.isDigit = true

namespace Guardians

/-- A length in bytes and one in digits are the same where there are only digits. -/
theorem fits_iff {digits : List Char} :
    (9 ≤ (String.ofList digits).utf8ByteSize && (String.ofList digits).utf8ByteSize ≤ 15 &&
      digits.all Char.isDigit) = true ↔
    9 ≤ digits.length ∧ digits.length ≤ 15 ∧ ∀ c ∈ digits, c.isDigit = true := by
  simp only [Bool.and_eq_true, decide_eq_true_eq, List.all_eq_true]
  constructor
  · rintro ⟨⟨long, short⟩, all⟩
    rw [Text.utf8ByteSize_digits all] at long short
    exact ⟨long, short, all⟩
  · rintro ⟨long, short, all⟩
    rw [Text.utf8ByteSize_digits all]
    exact ⟨⟨long, short⟩, all⟩

theorem isPhoneNumber_iff {s : String} : isPhoneNumber s = true ↔ PhoneNumber s := by
  unfold isPhoneNumber PhoneNumber
  dsimp only
  rw [fits_iff]
  constructor
  · intro accepted
    split at accepted
    · rename_i cs signed
      exact ⟨cs, .inr signed, accepted⟩
    · exact ⟨s.toList, .inl rfl, accepted⟩
  · rintro ⟨digits, plain | signed, accepted⟩
    · rw [plain]
      split
      · exact absurd (accepted.2.2 '+' List.mem_cons_self) (by decide)
      · exact accepted
    · rw [signed]
      exact accepted

end Guardians

/-- An ASCII capital and at least one small letter. -/
def CapitalizedWord (cs : List Char) : Prop :=
  ∃ capital small, cs = capital :: small ∧ capital.isUpper = true ∧ small ≠ [] ∧ ∀ c ∈ small, c.isLower = true

theorem CapitalizedWord.not_mem {cs : List Char} (word : CapitalizedWord cs) : ' ' ∉ cs := by
  obtain ⟨capital, small, rfl, upper, -, lower⟩ := word
  intro space
  rcases List.mem_cons.1 space with rfl | inside
  · exact absurd upper (by decide)
  · exact absurd (lower ' ' inside) (by decide)

/-- One capitalized word, or two with a space between them. -/
def ProperName (s : String) : Prop :=
  CapitalizedWord s.toList ∨
    ∃ first second, s.toList = first ++ ' ' :: second ∧ CapitalizedWord first ∧ CapitalizedWord second

/-- Letters and blanks, with a letter at each end. -/
structure PlaceName (s : String) : Prop where
  nonempty : s ≠ ""
  trimmed : Text.trim s = s
  letters : ∀ c ∈ s.toList, c.isAlpha = true ∨ Text.isBlank c = true

namespace ProfileMenu

theorem isCapitalized_iff {cs : List Char} : isCapitalized cs = true ↔ CapitalizedWord cs := by
  unfold isCapitalized CapitalizedWord
  split
  · simp
  · rename_i short
    refine iff_of_false Bool.false_ne_true ?_
    rintro ⟨capital, _ | ⟨small, rest⟩, rfl, -, nonempty, -⟩
    · exact nonempty rfl
    · exact short capital small rest rfl

theorem words_ne_nil (cs : List Char) : words cs ≠ [] := by
  unfold words
  split
  · simp
  · split
    · simp
    · split <;> simp

/-- The words with single spaces between them are the text again. -/
theorem intercalate_words (cs : List Char) : [' '].intercalate (words cs) = cs := by
  induction cs with
  | nil => rfl
  | cons c cs ih =>
    obtain ⟨word, rest, split⟩ := List.exists_cons_of_ne_nil (words_ne_nil cs)
    rw [split] at ih
    by_cases space : c = ' '
    · rw [words, if_pos space, split, space]
      exact congrArg (' ' :: ·) ih
    · rw [words, if_neg space, split, ← ih]
      cases rest <;> rfl

theorem words_of_not_mem {cs : List Char} (free : ' ' ∉ cs) : words cs = [cs] := by
  induction cs with
  | nil => rfl
  | cons c cs ih =>
    obtain ⟨other, later⟩ := not_or.1 (mt List.mem_cons.2 free)
    rw [words, if_neg (Ne.symm other), ih later]

theorem words_append {cs : List Char} (free : ' ' ∉ cs) (rest : List Char) :
    words (cs ++ ' ' :: rest) = cs :: words rest := by
  induction cs with
  | nil => exact if_pos rfl
  | cons c cs ih =>
    obtain ⟨other, later⟩ := not_or.1 (mt List.mem_cons.2 free)
    rw [List.cons_append, words, if_neg (Ne.symm other), ih later]

theorem isName_iff {s : String} : isName s = true ↔ ProperName s := by
  have decided : isName s = true ↔ (words s.toList).length ≤ 2 ∧ ∀ word ∈ words s.toList, CapitalizedWord word := by
    simp [isName, isCapitalized_iff, Nat.one_le_iff_ne_zero, words_ne_nil]
  rw [decided]
  constructor
  · rintro ⟨few, capitalized⟩
    have text := intercalate_words s.toList
    rcases split : words s.toList with _ | ⟨first, _ | ⟨second, _ | ⟨third, rest⟩⟩⟩
    · exact absurd split (words_ne_nil _)
    · rw [split] at text capitalized
      have whole : first = s.toList := by simpa [List.intercalate] using text
      exact .inl (whole ▸ capitalized first List.mem_cons_self)
    · rw [split] at text capitalized
      have joined : s.toList = first ++ ' ' :: second := by simpa [List.intercalate] using text.symm
      exact .inr ⟨first, second, joined, capitalized first List.mem_cons_self, capitalized second (by simp)⟩
    · rw [split] at few
      simp at few
  · rintro (single | ⟨first, second, text, front, back⟩)
    · rw [words_of_not_mem single.not_mem]
      exact ⟨by simp, List.forall_mem_singleton.2 single⟩
    · rw [text, words_append front.not_mem, words_of_not_mem back.not_mem]
      exact ⟨by simp, List.forall_mem_cons.2 ⟨front, List.forall_mem_singleton.2 back⟩⟩

/-- What a place is stored as. -/
theorem placeName_trim {input : String} (accepted : isLocation input = true) : PlaceName (Text.trim input) := by
  obtain ⟨nonempty, letters⟩ := (Bool.and_eq_true _ _).mp accepted
  refine ⟨?_, Text.trim_trim input, ?_⟩
  · intro empty
    have nothing := congrArg String.toList empty
    rw [Text.trim, String.toList_ofList] at nothing
    simp [nothing] at nonempty
  · rw [Text.trim, String.toList_ofList]
    intro c mem
    simpa using List.all_eq_true.1 letters c mem

/-- The year that is accepted is the one that is stored. -/
theorem exists_year {currentYear : Int} {input : String} (accepted : isYearOfBirth currentYear input = true) :
    ∃ year, year? input = some year ∧ earliestYearOfBirth ≤ year.toInt ∧ year.toInt ≤ currentYear := by
  obtain ⟨year, read, bounds⟩ := (Option.any_eq_true _ _).1 accepted
  exact ⟨year, read, by simpa using bounds⟩

end ProfileMenu

/-- A name is accepted exactly if it is one capitalized word or two with a space between them, and a phone number exactly
if it is 9 to 15 digits with at most one `+` in front. Nothing else is accepted, whatever characters it has. -/
theorem entries_exact :
    (∀ (s : Subscriber) (event : Event), ProfileMenu.isValidName s event = true ↔ ProperName event.input) ∧
    ∀ number : String, Guardians.isPhoneNumber number = true ↔ PhoneNumber number :=
  ⟨fun _ _ => ProfileMenu.isName_iff, fun _ => Guardians.isPhoneNumber_iff⟩

/-- Fifteen bytes, but none of the five wide digits is an ASCII digit. -/
example : Guardians.isPhoneNumber "１２３４５" = false := by decide

end Menus

end DialMenu
