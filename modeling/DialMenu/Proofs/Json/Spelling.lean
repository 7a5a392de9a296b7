import DialMenu.Proofs.Json.Text

/-!
The texts of a JSON value besides the one that is written for it. A text puts blanks around the words, and a word may be
spelled in more than one way if it is a string or a number with a fraction. Every text of a value is read as that value.
-/

namespace DialMenu.Json

/-- White space. -/
def Blank (cs : List Char) : Prop := ∀ c ∈ cs, c = ' ' ∨ c = '\t' ∨ c = '\n' ∨ c = '\r'

/-- Decimal digits, at least one. -/
structure Digits (cs : List Char) : Prop where
  nonempty : cs ≠ []
  digit : ∀ c ∈ cs, c.isDigit = true

/-- The letters that stand behind a backslash, each with the character that it means. -/
def shortEscapes : List (Char × Char) := [
  ('"', '"'), ('\\', '\\'), ('/', '/'), ('b', '\x08'), ('f', '\x0c'), ('n', '\n'), ('r', '\r'), ('t', '\t')]

/-- The spellings of a piece of a string: a character by itself or by its letter, a UTF-16 unit by four digits. -/
inductive Piece.Spelled : Piece → List Char → Prop
  | plain {c : Char} : c ≠ '"' → c ≠ '\\' → 0x20 ≤ c.toNat → Spelled (.char c) [c]
  | short {letter c : Char} : (letter, c) ∈ shortEscapes → Spelled (.char c) ['\\', letter]
  | unit {a b c d : Char} {n : Nat} : unit? a b c d = some n → Spelled (.unit n) ['\\', 'u', a, b, c, d]

/-- The spellings of the inside of a string. -/
inductive Spelled : List Piece → List Char → Prop
  | nil : Spelled [] []
  | cons {piece : Piece} {ps : List Piece} {front rest : List Char} :
      piece.Spelled front → Spelled ps rest → Spelled (piece :: ps) (front ++ rest)

/-- The part of a number from its point on; says whether there is one. -/
inductive Fraction : Bool → List Char → Prop
  | absent : Fraction false []
  | present {ds : List Char} : Digits ds → Fraction true ('.' :: ds)

/-- The exponent of a number; says whether there is one. -/
inductive Exponent : Bool → List Char → Prop
  | absent : Exponent false []
  | present {e : Char} {sign ds : List Char} : e = 'e' ∨ e = 'E' → sign = [] ∨ sign = ['+'] ∨ sign = ['-'] → Digits ds →
      Exponent true (e :: (sign ++ ds))

/-- The spellings of a word. Words other than strings and numbers that are no integers have only the shortest one. -/
inductive Token.Spelled : Token → List Char → Prop
  | shortest (t : Token) : Spelled t t.spelling
  | string {ps : List Piece} {inside : List Char} : Json.Spelled ps inside →
      Spelled (.string (.ofPieces ps)) ('"' :: (inside ++ ['"']))
  | real {negative fractional scaled : Bool} {ds point scale : List Char} : Digits ds →
      (ds.head? = some '0' → ds = ['0']) → Fraction fractional point → Exponent scaled scale →
      (fractional = true ∨ scaled = true ∨ negative = true ∧ ds = ['0']) →
      Spelled .real ((if negative then ['-'] else []) ++ (ds ++ (point ++ scale)))

/-- The texts of a sequence of words: each of them in one of its spellings, with blanks around them. -/
inductive Layout : List Token → List Char → Prop
  | nil {blanks : List Char} : Blank blanks → Layout [] blanks
  | cons {t : Token} {ts : List Token} {blanks spelling rest : List Char} :
      Blank blanks → t.Spelled spelling → Layout ts rest → Layout (t :: ts) (blanks ++ (spelling ++ rest))

/-- The texts of a value. -/
def Spells (j : Json) (s : String) : Prop := Layout j.words s.toList

section Strings

theorem pieces_of_short {letter c : Char} (mem : (letter, c) ∈ shortEscapes) (rest : List Char) :
    pieces ('\\' :: letter :: rest) = withPiece (.char c) (pieces rest) := by
  simp only [shortEscapes, List.mem_cons, Prod.mk.injEq, List.not_mem_nil, or_false] at mem
  rcases mem with ⟨rfl, rfl⟩ | ⟨rfl, rfl⟩ | ⟨rfl, rfl⟩ | ⟨rfl, rfl⟩ | ⟨rfl, rfl⟩ | ⟨rfl, rfl⟩ | ⟨rfl, rfl⟩ | ⟨rfl, rfl⟩ <;>
    rfl

theorem pieces_of_spelled {piece : Piece} {front : List Char} (spelled : piece.Spelled front) (rest : List Char) :
    pieces (front ++ rest) = withPiece piece (pieces rest) := by
  cases spelled with
  | @plain c noQuote noBackslash visible =>
    rw [List.singleton_append, pieces]
    · exact if_neg (by simp [noBackslash, Nat.not_lt_of_le visible])
    all_goals grind
  | short mem => exact pieces_of_short mem rest
  | unit number => simp only [List.cons_append, List.nil_append, pieces, number]

theorem pieces_of_inside {ps : List Piece} {inside : List Char} (spelled : Spelled ps inside) (rest : List Char) :
    pieces (inside ++ '"' :: rest) = some (ps, rest) := by
  induction spelled with
  | nil => rfl
  | cons piece _ ih =>
    rw [List.append_assoc, pieces_of_spelled piece, ih]
    rfl

end Strings

section Numbers

variable {rest ds point scale : List Char} {negative fractional scaled : Bool}

/-- Behind the digits of a number there is no other digit. -/
theorem takeWhile_behind (pointed : Fraction fractional point) (scaling : Exponent scaled scale) (closed : Closed rest) :
    (point ++ (scale ++ rest)).takeWhile Char.isDigit = [] := by
  cases pointed with
  | present => rfl
  | absent =>
    cases scaling with
    | absent => exact closed.takeWhile_isDigit
    | present letter => rcases letter with rfl | rfl <;> rfl

theorem Exponent.takeWhile_isDigit (scaling : Exponent scaled scale) (closed : Closed rest) :
    (scale ++ rest).takeWhile Char.isDigit = [] := takeWhile_behind .absent scaling closed

/-- What digits begin with is one of them. -/
theorem Digits.mem_of_append (digits : Digits ds) {c : Char} {cs : List Char} (begins : ds ++ rest = c :: cs) :
    c ∈ ds := by
  obtain ⟨d, more, rfl⟩ := List.exists_cons_of_ne_nil digits.nonempty
  exact (List.cons.inj begins).1 ▸ List.mem_cons_self

theorem Fraction.fraction_append (pointed : Fraction fractional point) (scaling : Exponent scaled scale)
    (closed : Closed rest) : fraction (point ++ (scale ++ rest)) = some (fractional, scale ++ rest) := by
  cases pointed with
  | present digits =>
    have ended := scaling.takeWhile_isDigit closed
    rw [List.cons_append, fraction, Numeral.takeWhile_digits digits.digit ended,
      Numeral.dropWhile_digits digits.digit ended, if_neg digits.nonempty]
  | absent =>
    cases scaling with
    | absent => exact closed.fraction
    | present letter => rcases letter with rfl | rfl <;> rfl

theorem Exponent.exponent_append (scaling : Exponent scaled scale) (closed : Closed rest) :
    exponent (scale ++ rest) = some (scaled, rest) := by
  cases scaling with
  | absent => exact closed.exponent
  | @present e sign ds letter signed digits =>
    have ended := closed.takeWhile_isDigit
    have after : (if (ds ++ rest).takeWhile Char.isDigit = [] then none else
        some (true, (ds ++ rest).dropWhile Char.isDigit)) = some (true, rest) := by
      rw [Numeral.takeWhile_digits digits.digit ended, Numeral.dropWhile_digits digits.digit ended,
        if_neg digits.nonempty]
    rw [List.cons_append]
    unfold exponent
    simp only [if_pos letter]
    rcases signed with rfl | rfl | rfl
    · split
      · rename_i same
        exact absurd (digits.digit '+' (digits.mem_of_append same)) (by decide)
      · rename_i same
        exact absurd (digits.digit '-' (digits.mem_of_append same)) (by decide)
      · exact after
    · exact after
    · exact after

theorem unsigned_of_real (digits : Digits ds) (leading : ds.head? = some '0' → ds = ['0'])
    (pointed : Fraction fractional point) (scaling : Exponent scaled scale) (closed : Closed rest)
    (noInteger : fractional = true ∨ scaled = true ∨ negative = true ∧ ds = ['0']) :
    unsigned negative (ds ++ (point ++ (scale ++ rest))) = some (.real, rest) := by
  have ended := takeWhile_behind pointed scaling closed
  have read : numeral negative ds (point ++ (scale ++ rest)) = some (.real, rest) := by
    rw [numeral, pointed.fraction_append scaling closed]
    dsimp only
    rw [scaling.exponent_append closed]
    refine if_pos (noInteger.imp_right (Or.imp_right (And.imp_right ?_)))
    rintro rfl
    rfl
  rw [unsigned, Numeral.takeWhile_digits digits.digit ended, Numeral.dropWhile_digits digits.digit ended]
  obtain ⟨d, more, rfl⟩ := List.exists_cons_of_ne_nil digits.nonempty
  rw [← read]
  refine if_neg ?_
  rintro ⟨rfl, several⟩
  exact several (List.cons.inj (leading rfl)).2

end Numbers

section Words

variable {t : Token} {ts : List Token} {spelling cs rest : List Char}

/-- Every word is cut off each of its spellings, a number if a value may end there. -/
theorem token_of_spelled (spelled : t.Spelled spelling) (closed : t.IsNumber → Closed rest) :
    token (spelling ++ rest) = some (t, rest) := by
  cases spelled with
  | shortest => exact token_spelling t closed
  | @string ps inside spelled =>
    have read := pieces_of_inside spelled rest
    rw [List.cons_append, List.append_assoc, List.singleton_append]
    simp only [token, read, Option.map_some]
  | @real negative fractional scaled ds point scale digits leading pointed scaling noInteger =>
    have number := unsigned_of_real digits leading pointed scaling (closed trivial) noInteger
    simp only [List.append_assoc]
    cases negative with
    | true => exact number
    | false =>
      obtain ⟨d, more, rfl⟩ := List.exists_cons_of_ne_nil digits.nonempty
      exact (token_of_isDigit _ (digits.digit d List.mem_cons_self)).trans number

/-- No spelling is empty or begins with a blank. -/
theorem exists_eq_of_spelled (spelled : t.Spelled spelling) : ∃ c cs, spelling = c :: cs ∧ isSpace c = false := by
  cases spelled with
  | shortest => exact exists_spelling_eq t
  | string => exact ⟨_, _, rfl, rfl⟩
  | @real negative _ _ ds _ _ digits =>
    cases negative with
    | true => exact ⟨_, _, rfl, rfl⟩
    | false =>
      obtain ⟨d, more, rfl⟩ := List.exists_cons_of_ne_nil digits.nonempty
      exact ⟨d, _, rfl, isSpace_of_isDigit (digits.digit d List.mem_cons_self)⟩

theorem tokens_blank_append {blanks : List Char} (blank : Blank blanks) (rest : List Char) :
    tokens (blanks ++ rest) = tokens rest := by
  induction blanks with
  | nil => rfl
  | cons c cs ih =>
    obtain ⟨space, others⟩ := List.forall_mem_cons.1 blank
    rw [List.cons_append, tokens, if_pos (by simpa [isSpace, or_assoc] using space), ih others]

/-- A value may end before these words. -/
def Closes : List Token → Prop
  | [] => True
  | t :: _ => t = .comma ∨ t = .closeBracket ∨ t = .closeBrace

/-- Behind every number a value may end. -/
def Separated : List Token → Prop
  | [] => True
  | t :: ts => (t.IsNumber → Closes ts) ∧ Separated ts

theorem closed_of_layout (layout : Layout ts cs) (closes : Closes ts) : Closed cs := by
  have blankFirst {blanks rest : List Char} (blank : Blank blanks) (after : Closed rest) : Closed (blanks ++ rest) := by
    cases blanks with
    | nil => exact after
    | cons c cs => exact .inr (.inr (.inr (blank c List.mem_cons_self)))
  cases layout with
  | nil blank =>
    have closed : Closed (cs ++ []) := blankFirst blank trivial
    rwa [List.append_nil] at closed
  | cons blank spelled =>
    refine blankFirst blank ?_
    rcases closes with rfl | rfl | rfl <;> cases spelled
    · exact .inl rfl
    · exact .inr (.inl rfl)
    · exact .inr (.inr (.inl rfl))

/-- A text is cut into the words that it was laid out from. -/
theorem tokens_of_layout (layout : Layout ts cs) (separated : Separated ts) : tokens cs = some ts := by
  induction layout with
  | nil blank =>
    have nothing := tokens_blank_append blank []
    rwa [List.append_nil, tokens] at nothing
  | cons blank spelled layout ih =>
    have read := token_of_spelled spelled fun number => closed_of_layout layout (separated.1 number)
    obtain ⟨c, cs, begins, noSpace⟩ := exists_eq_of_spelled spelled
    rw [tokens_blank_append blank]
    rw [begins, List.cons_append] at read ⊢
    rw [tokens, if_neg (by simp [noSpace])]
    split
    · rename_i found
      cases read.symm.trans found
      rw [ih separated.2]
      rfl
    · rename_i missing
      cases read.symm.trans missing

end Words

theorem closes_wordsOfItems (items : List Json) (rest : List Token) : Closes (wordsOfItems items ++ rest) := by
  cases items with
  | nil => exact .inr (.inl rfl)
  | cons => exact .inl rfl

theorem closes_wordsOfMembers (members : List (Literal × Json)) (rest : List Token) :
    Closes (wordsOfMembers members ++ rest) := by
  cases members with
  | nil => exact .inr (.inr rfl)
  | cons => exact .inl rfl

mutual

/-- Among the words of a value, numbers stand only where a value may end behind them. -/
theorem separated_words : (j : Json) → {rest : List Token} → Closes rest → Separated rest → Separated (j.words ++ rest)
  | null, _, _, after | bool _, _, _, after | string _, _, _, after => ⟨nofun, after⟩
  | integer _, _, closes, after | real, _, closes, after => ⟨fun _ => closes, after⟩
  | array [], _, _, after | object [], _, _, after => ⟨nofun, nofun, after⟩
  | array (item :: items), rest, _, after => by
    rw [words, List.cons_append, List.append_assoc]
    exact ⟨nofun, separated_words item (closes_wordsOfItems items rest) (separated_wordsOfItems items after)⟩
  | object ((_, value) :: members), rest, _, after => by
    simp only [words, List.cons_append, List.append_assoc]
    exact ⟨nofun, nofun, nofun,
      separated_words value (closes_wordsOfMembers members rest) (separated_wordsOfMembers members after)⟩

theorem separated_wordsOfItems : (items : List Json) → {rest : List Token} → Separated rest →
    Separated (wordsOfItems items ++ rest)
  | [], _, after => ⟨nofun, after⟩
  | item :: items, rest, after => by
    rw [wordsOfItems, List.cons_append, List.append_assoc]
    exact ⟨nofun, separated_words item (closes_wordsOfItems items rest) (separated_wordsOfItems items after)⟩

theorem separated_wordsOfMembers : (members : List (Literal × Json)) → {rest : List Token} → Separated rest →
    Separated (wordsOfMembers members ++ rest)
  | [], _, after => ⟨nofun, after⟩
  | (_, value) :: members, rest, after => by
    simp only [wordsOfMembers, List.cons_append, List.append_assoc]
    exact ⟨nofun, nofun, nofun,
      separated_words value (closes_wordsOfMembers members rest) (separated_wordsOfMembers members after)⟩

end

/-- Every text of a value is read as that value. -/
theorem read_of_spells {j : Json} {s : String} (spells : Spells j s) : read s = some j := by
  have separated : Separated (j.words ++ []) := separated_words j trivial trivial
  rw [List.append_nil] at separated
  have built := resume_words j false [] []
  rw [List.append_nil] at built
  rw [read, tokens_of_layout spells separated]
  simp [ofWords, built, resume]

/-- The shortest spellings of words, with blanks before them as far as there are any. -/
def spread : List (List Char) → List Token → List Char
  | [], ts => ts.flatMap Token.spelling
  | blanks :: _, [] => blanks
  | blanks :: more, t :: ts => blanks ++ (t.spelling ++ spread more ts)

theorem layout_spread {blanks : List (List Char)} (blank : ∀ cs ∈ blanks, Blank cs) (ts : List Token) :
    Layout ts (spread blanks ts) := by
  have noBlanks : Blank [] := fun _ mem => absurd mem List.not_mem_nil
  induction ts generalizing blanks with
  | nil =>
    cases blanks with
    | nil => exact .nil noBlanks
    | cons cs => exact .nil (blank cs List.mem_cons_self)
  | cons t ts ih =>
    cases blanks with
    | nil =>
      have others := ih blank
      exact .cons noBlanks (.shortest t) others
    | cons cs more =>
      obtain ⟨first, others⟩ := List.forall_mem_cons.1 blank
      exact .cons first (.shortest t) (ih others)

/-- The text that is written for a value is one of its texts. -/
theorem spells_write (j : Json) : Spells j j.write := by
  rw [Spells, write, String.toList_ofList]
  have noBlanks : ∀ cs ∈ ([] : List (List Char)), Blank cs := fun _ mem => absurd mem List.not_mem_nil
  exact layout_spread noBlanks j.words

end DialMenu.Json
