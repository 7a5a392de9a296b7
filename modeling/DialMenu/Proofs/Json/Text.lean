import DialMenu.Json.Grammar
import DialMenu.Proofs.Numeral

/-!
JSON text is read back as the value that it was written for: every word is cut off its spelling, and the
words of a value build that value again.
-/

namespace DialMenu

namespace Json

/-- What follows a value: the end, a comma, a closing bracket or a blank. -/
def Closed : List Char → Prop
  | [] => True
  | c :: _ => c = ',' ∨ c = ']' ∨ c = '\x7d' ∨ c = ' ' ∨ c = '\t' ∨ c = '\n' ∨ c = '\r'

section Number

variable {rest : List Char}

theorem Closed.takeWhile_isDigit (closed : Closed rest) : rest.takeWhile Char.isDigit = [] := by
  cases rest with
  | nil => rfl
  | cons c rest => rcases closed with rfl | rfl | rfl | rfl | rfl | rfl | rfl <;> rfl

theorem Closed.fraction (closed : Closed rest) : fraction rest = some (false, rest) := by
  cases rest with
  | nil => rfl
  | cons c rest => rcases closed with rfl | rfl | rfl | rfl | rfl | rfl | rfl <;> rfl

theorem Closed.exponent (closed : Closed rest) : exponent rest = some (false, rest) := by
  cases rest with
  | nil => rfl
  | cons c rest => rcases closed with rfl | rfl | rfl | rfl | rfl | rfl | rfl <;> rfl

theorem unsigned_ofNat (negative : Bool) (n : Nat) (closed : Closed rest) :
    unsigned negative (Numeral.ofNat n ++ rest) = numeral negative (Numeral.ofNat n) rest := by
  have all : ∀ c ∈ Numeral.ofNat n, c.isDigit = true := fun c => Numeral.isDigit_of_mem_ofNat
  rw [unsigned, Numeral.takeWhile_digits all closed.takeWhile_isDigit,
    Numeral.dropWhile_digits all closed.takeWhile_isDigit]
  cases digits : Numeral.ofNat n with
  | nil => exact absurd digits (Numeral.ofNat_ne_nil n)
  | cons d more =>
    refine if_neg ?_
    rintro ⟨rfl, several⟩
    exact several (Numeral.eq_nil_of_ofNat_eq digits)

theorem numeral_ofNat (negative : Bool) (n : Nat) (closed : Closed rest) (written : negative = true → n ≠ 0) :
    numeral negative (Numeral.ofNat n) rest = some (.integer (if negative then -(n : Int) else n), rest) := by
  simp only [numeral, closed.fraction, closed.exponent, Numeral.value_ofNat]
  cases negative with
  | false => simp
  | true => simp [written rfl]

theorem token_of_isDigit {c : Char} (cs : List Char) (digit : c.isDigit = true) :
    token (c :: cs) = unsigned false (c :: cs) := by
  unfold token
  split
  case h_1 same => cases same
  case h_13 => rfl
  all_goals
    rename_i same
    cases same
    exact absurd digit (by decide)

theorem token_ofNat (n : Nat) (closed : Closed rest) :
    token (Numeral.ofNat n ++ rest) = some (.integer n, rest) := by
  have read : unsigned false (Numeral.ofNat n ++ rest) = some (.integer n, rest) := by
    rw [unsigned_ofNat false n closed, numeral_ofNat false n closed (by simp)]
    simp
  rw [← read]
  cases digits : Numeral.ofNat n with
  | nil => exact absurd digits (Numeral.ofNat_ne_nil n)
  | cons d more =>
    have digit : d.isDigit = true := Numeral.isDigit_of_mem_ofNat (n := n) (by simp [digits])
    exact token_of_isDigit _ digit

theorem token_ofInt (n : Int) (closed : Closed rest) :
    token (Numeral.ofInt n ++ rest) = some (.integer n, rest) := by
  cases n with
  | ofNat n => exact token_ofNat n closed
  | negSucc n =>
    change unsigned true (Numeral.ofNat (n + 1) ++ rest) = _
    rw [unsigned_ofNat true _ closed, numeral_ofNat true _ closed (by simp), if_pos rfl]
    rfl

theorem token_real (closed : Closed rest) : token ('0' :: '.' :: '0' :: rest) = some (.real, rest) := by
  have fractional : fraction ('.' :: '0' :: rest) = some (true, rest) := by
    have all : ∀ c ∈ ['0'], c.isDigit = true := List.forall_mem_singleton.2 rfl
    have digits := Numeral.takeWhile_digits all closed.takeWhile_isDigit
    have after := Numeral.dropWhile_digits all closed.takeWhile_isDigit
    rw [List.singleton_append] at digits after
    rw [Json.fraction, digits, after]
    rfl
  rw [token_of_isDigit _ rfl]
  change numeral false ['0'] ('.' :: '0' :: rest) = _
  simp [numeral, fractional, closed.exponent]

end Number

/-- The piece that the spelling of a character is read as. -/
def Piece.ofChar (c : Char) : Piece :=
  if 0x20 ≤ c.toNat ∨ (escape c).length = 2 then .char c else .unit c.toNat

theorem unit?_control {n : Nat} (small : n < 0x20) :
    unit? '0' '0' (Hex.digit (n / 16)) (Hex.digit (n % 16)) = some n := by
  have zero : Hex.digit? '0' = some 0 := rfl
  have whole : n / 16 % 16 * 16 + n % 16 = n := by omega
  simp [unit?, zero, Hex.digit?_digit, whole]

/-- A character is read off its spelling. -/
theorem pieces_escape (c : Char) (rest : List Char) :
    pieces (escape c ++ rest) = withPiece (.ofChar c) (pieces rest) := by
  unfold escape
  split
  case isTrue quote =>
    subst quote
    rfl
  split
  case isTrue backslash =>
    subst backslash
    rfl
  split
  case isTrue backspace =>
    subst backspace
    rfl
  split
  case isTrue formFeed =>
    subst formFeed
    rfl
  split
  case isTrue newline =>
    subst newline
    rfl
  split
  case isTrue carriageReturn =>
    subst carriageReturn
    rfl
  split
  case isTrue tab =>
    subst tab
    rfl
  split
  case isTrue noQuote noBackslash noBackspace noFormFeed noNewline noReturn noTab control =>
    have piece : Piece.ofChar c = .unit c.toNat := by
      refine if_neg ?_
      simp [escape, noQuote, noBackslash, noBackspace, noFormFeed, noNewline, noReturn, noTab, control]
    rw [piece]
    simp only [List.cons_append, List.nil_append, pieces, unit?_control control]
  case isFalse noQuote noBackslash _ _ _ _ _ plain =>
    have piece : Piece.ofChar c = .char c := if_pos (.inl (Nat.le_of_not_lt plain))
    rw [piece, List.singleton_append, pieces]
    · exact if_neg (by simp [noBackslash, plain])
    all_goals grind

theorem pieces_escapes (cs rest : List Char) :
    pieces (cs.flatMap escape ++ '"' :: rest) = some (cs.map Piece.ofChar, rest) := by
  induction cs with
  | nil => rfl
  | cons c cs ih =>
    rw [List.flatMap_cons, List.append_assoc, pieces_escape, ih]
    rfl

theorem joined_unit {n : Nat} (small : n < 0x20) (ps : List Piece) :
    joined (.unit n :: ps) = (joined ps).map (Char.ofNat n :: ·) := by
  have high : isHighSurrogate n = false := by
    rw [isHighSurrogate, decide_eq_false (by omega), Bool.false_and]
  have low : isLowSurrogate n = false := by
    rw [isLowSurrogate, decide_eq_false (by omega), Bool.false_and]
  cases ps with
  | nil => simp [joined, high, low]
  | cons p ps => cases p <;> simp [joined, high, low]

theorem joined_ofChar (cs : List Char) : joined (cs.map Piece.ofChar) = some cs := by
  induction cs with
  | nil => rfl
  | cons c cs ih =>
    rw [List.map_cons, Piece.ofChar]
    split
    · rw [joined, ih]
      rfl
    · rw [joined_unit (by omega), ih, Char.ofNat_toNat]
      rfl

/-- The words whose end only shows in what follows. -/
def Token.IsNumber : Token → Prop
  | integer _ | real => True
  | _ => False

/-- Every word is cut off its spelling, a number if a value may end there. -/
theorem token_spelling (t : Token) {rest : List Char} (closed : t.IsNumber → Closed rest) :
    token (t.spelling ++ rest) = some (t, rest) := by
  cases t with
  | openBrace | closeBrace | openBracket | closeBracket | comma | colon => rfl
  | null => simp [Token.spelling, token, afterWord]
  | bool b => cases b <;> simp [Token.spelling, token, afterWord]
  | integer n => exact token_ofInt n (closed trivial)
  | real => exact token_real (closed trivial)
  | string s =>
    cases s with
    | text s =>
      have read := pieces_escapes s.toList rest
      simp only [Token.spelling, List.cons_append, List.append_assoc, List.nil_append, token, read]
      simp [Literal.ofPieces, joined_ofChar]
    | unpaired => rfl

theorem isSpace_of_isDigit {c : Char} (digit : c.isDigit = true) : isSpace c = false := by
  cases space : isSpace c with
  | false => rfl
  | true =>
    simp only [isSpace, Bool.or_eq_true, decide_eq_true_eq] at space
    rcases space with ((rfl | rfl) | rfl) | rfl <;> exact absurd digit (by decide)

/-- No spelling is empty or begins with a blank. -/
theorem exists_spelling_eq (t : Token) : ∃ c cs, t.spelling = c :: cs ∧ isSpace c = false := by
  have numeral (n : Nat) : ∃ c cs, Numeral.ofNat n = c :: cs ∧ isSpace c = false := by
    cases digits : Numeral.ofNat n with
    | nil => exact absurd digits (Numeral.ofNat_ne_nil n)
    | cons d more =>
      exact ⟨d, more, rfl, isSpace_of_isDigit (Numeral.isDigit_of_mem_ofNat (n := n) (by simp [digits]))⟩
  cases t with
  | openBrace | closeBrace | openBracket | closeBracket | comma | colon | null | real => exact ⟨_, _, rfl, rfl⟩
  | bool b => cases b <;> exact ⟨_, _, rfl, rfl⟩
  | integer n =>
    cases n with
    | ofNat n => exact numeral n
    | negSucc n => exact ⟨_, _, rfl, rfl⟩
  | string s => cases s <;> exact ⟨_, _, rfl, rfl⟩

/-- The words are cut out of their spelling again when this rest follows. -/
def Recut (ts : List Token) (rest : List Char) : Prop :=
  tokens (ts.flatMap Token.spelling ++ rest) = (tokens rest).map (ts ++ ·)

namespace Recut

variable {t : Token} {ts us : List Token} {rest : List Char}

theorem nil : Recut [] rest := by simp [Recut]

theorem cons (closed : t.IsNumber → Closed (ts.flatMap Token.spelling ++ rest)) (others : Recut ts rest) :
    Recut (t :: ts) rest := by
  have read := token_spelling t closed
  obtain ⟨c, cs, spelled, noSpace⟩ := exists_spelling_eq t
  rw [Recut, List.flatMap_cons, List.append_assoc]
  rw [spelled, List.cons_append] at read ⊢
  rw [tokens, if_neg (by simp [noSpace])]
  split
  · rename_i found
    cases read.symm.trans found
    rw [others, Option.map_map]
    rfl
  · rename_i missing
    cases read.symm.trans missing

theorem append (first : Recut ts (us.flatMap Token.spelling ++ rest)) (others : Recut us rest) :
    Recut (ts ++ us) rest := by
  rw [Recut, List.flatMap_append, List.append_assoc, first, others, Option.map_map]
  congr 1
  funext vs
  exact (List.append_assoc ts us vs).symm

end Recut

theorem closed_wordsOfItems (items : List Json) (rest : List Char) :
    Closed ((wordsOfItems items).flatMap Token.spelling ++ rest) := by
  cases items with
  | nil => exact .inr (.inl rfl)
  | cons item items => exact .inl rfl

theorem closed_wordsOfMembers (members : List (Literal × Json)) (rest : List Char) :
    Closed ((wordsOfMembers members).flatMap Token.spelling ++ rest) := by
  cases members with
  | nil => exact .inr (.inr (.inl rfl))
  | cons member members => exact .inl rfl

mutual

/-- The text of a value is cut into its words again. -/
theorem recut_words : (j : Json) → {rest : List Char} → Closed rest → Recut j.words rest
  | null, _, _ | bool _, _, _ | string _, _, _ => .cons nofun .nil
  | integer _, _, closed | real, _, closed => .cons (fun _ => closed) .nil
  | array [], _, _ | object [], _, _ => .cons nofun (.cons nofun .nil)
  | array (item :: items), rest, _ =>
    .cons nofun (.append (recut_words item (closed_wordsOfItems items rest)) (recut_wordsOfItems items rest))
  | object ((_, value) :: members), rest, _ =>
    .cons nofun (.cons nofun (.cons nofun
      (.append (recut_words value (closed_wordsOfMembers members rest)) (recut_wordsOfMembers members rest))))

theorem recut_wordsOfItems : (items : List Json) → (rest : List Char) → Recut (wordsOfItems items) rest
  | [], _ => .cons nofun .nil
  | item :: items, rest =>
    .cons nofun (.append (recut_words item (closed_wordsOfItems items rest)) (recut_wordsOfItems items rest))

theorem recut_wordsOfMembers : (members : List (Literal × Json)) → (rest : List Char) →
    Recut (wordsOfMembers members) rest
  | [], _ => .cons nofun .nil
  | (_, value) :: members, rest =>
    .cons nofun (.cons nofun (.cons nofun
      (.append (recut_words value (closed_wordsOfMembers members rest)) (recut_wordsOfMembers members rest))))

end

mutual

/-- Where a value is expected, its words complete it. -/
theorem resume_words : (j : Json) → (first : Bool) → (outer : List Open) → (ts : List Token) →
    resume (.value first) outer (j.words ++ ts) = resume (.rest j) outer ts
  | null, _, _, _ | bool _, _, _, _ | string _, _, _, _ | integer _, _, _, _ | real, _, _, _ => by
    simp [words, resume]
  | array [], _, _, _ | object [], _, _, _ => by simp [words, resume]
  | array (item :: items), first, outer, ts => by
    have head := resume_words item true (.array [] :: outer) (wordsOfItems items ++ ts)
    have tail := resume_wordsOfItems items item [] outer ts
    simp only [words, List.cons_append, List.append_assoc, resume, head, tail]
    rfl
  | object ((key, value) :: members), first, outer, ts => by
    have head := resume_words value false (.object [] key :: outer) (wordsOfMembers members ++ ts)
    have tail := resume_wordsOfMembers members key value [] outer ts
    simp only [words, List.cons_append, List.append_assoc, resume, head, tail]
    rfl

theorem resume_wordsOfItems : (items : List Json) → (done : Json) → (before : List Json) → (outer : List Open) →
    (ts : List Token) →
    resume (.rest done) (.array before :: outer) (wordsOfItems items ++ ts) =
      resume (.rest (array (before.reverse ++ done :: items))) outer ts
  | [], done, before, outer, ts => by simp [wordsOfItems, resume]
  | item :: items, done, before, outer, ts => by
    have head := resume_words item false (.array (done :: before) :: outer) (wordsOfItems items ++ ts)
    have tail := resume_wordsOfItems items item (done :: before) outer ts
    simp only [wordsOfItems, List.cons_append, List.append_assoc, resume, head, tail, List.reverse_cons]
    rfl

theorem resume_wordsOfMembers : (members : List (Literal × Json)) → (key : Literal) → (done : Json) →
    (before : List (Literal × Json)) → (outer : List Open) → (ts : List Token) →
    resume (.rest done) (.object before key :: outer) (wordsOfMembers members ++ ts) =
      resume (.rest (object (before.reverse ++ (key, done) :: members))) outer ts
  | [], key, done, before, outer, ts => by simp [wordsOfMembers, resume]
  | (name, value) :: members, key, done, before, outer, ts => by
    have head := resume_words value false (.object ((key, done) :: before) name :: outer) (wordsOfMembers members ++ ts)
    have tail := resume_wordsOfMembers members name value ((key, done) :: before) outer ts
    simp only [wordsOfMembers, List.cons_append, List.append_assoc, resume, head, tail, List.reverse_cons]
    rfl

end

/-- Every value is read back from its text. -/
theorem read_write (j : Json) : read j.write = some j := by
  have cut : Recut j.words [] := recut_words j trivial
  have built := resume_words j false [] []
  rw [Recut, List.append_nil] at cut
  rw [List.append_nil] at built
  rw [read, write, String.toList_ofList, cut, tokens]
  simp [ofWords, built, resume]

end Json

end DialMenu
