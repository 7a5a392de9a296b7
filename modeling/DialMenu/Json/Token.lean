import DialMenu.Json.Basic
import DialMenu.Text.Basic

/-!
The words of JSON text: their spelling, and the cutting of a text into words. White space may stand
between any two words and means nothing.
-/

namespace DialMenu.Json

inductive Token where
  | openBrace
  | closeBrace
  | openBracket
  | closeBracket
  | comma
  | colon
  | null
  | bool (b : Bool)
  | integer (n : Int)
  | real
  | string (s : Literal)
deriving DecidableEq, Inhabited

/-- How a character stands in a string literal. -/
def escape (c : Char) : List Char :=
  if c = '"' then ['\\', '"']
  else if c = '\\' then ['\\', '\\']
  else if c = '\x08' then ['\\', 'b']
  else if c = '\x0c' then ['\\', 'f']
  else if c = '\n' then ['\\', 'n']
  else if c = '\r' then ['\\', 'r']
  else if c = '\t' then ['\\', 't']
  else if c.toNat < 0x20 then ['\\', 'u', '0', '0', Hex.digit (c.toNat / 16), Hex.digit (c.toNat % 16)]
  else [c]

/-- The shortest spelling of a word. -/
def Token.spelling : Token → List Char
  | openBrace => ['\x7b']
  | closeBrace => ['\x7d']
  | openBracket => ['[']
  | closeBracket => [']']
  | comma => [',']
  | colon => [':']
  | null => ['n', 'u', 'l', 'l']
  | bool true => ['t', 'r', 'u', 'e']
  | bool false => ['f', 'a', 'l', 's', 'e']
  | integer n => Numeral.ofInt n
  | real => ['0', '.', '0']
  | string (.text s) => '"' :: s.toList.flatMap escape ++ ['"']
  | string .unpaired => ['"', '\\', 'u', 'd', '8', '0', '0', '"']

/-- A piece of a string literal: a character, or a UTF-16 unit given by its number. -/
inductive Piece where
  | char (c : Char)
  | unit (n : Nat)

/-- Four hexadecimal digits. -/
def unit? (a b c d : Char) : Option Nat := do
  let a ← Hex.digit? a
  let b ← Hex.digit? b
  let c ← Hex.digit? c
  let d ← Hex.digit? d
  pure (((a * 16 + b) * 16 + c) * 16 + d)

/-- The character that a letter behind a backslash stands for. -/
def escaped? (letter : Char) : Option Char :=
  if letter = '"' ∨ letter = '\\' ∨ letter = '/' then some letter
  else if letter = 'b' then some '\x08'
  else if letter = 'f' then some '\x0c'
  else if letter = 'n' then some '\n'
  else if letter = 'r' then some '\r'
  else if letter = 't' then some '\t'
  else none

def withPiece (piece : Piece) (read : Option (List Piece × List Char)) : Option (List Piece × List Char) :=
  read.map fun (pieces, rest) => (piece :: pieces, rest)

/-- The pieces up to the closing quotation mark, and what follows it. -/
def pieces : List Char → Option (List Piece × List Char)
  | [] => none
  | '"' :: rest => some ([], rest)
  | '\\' :: 'u' :: a :: b :: c :: d :: rest =>
    match unit? a b c d with
    | some n => withPiece (.unit n) (pieces rest)
    | none => none
  | '\\' :: letter :: rest =>
    match escaped? letter with
    | some c => withPiece (.char c) (pieces rest)
    | none => none
  | c :: rest => if c = '\\' ∨ c.toNat < 0x20 then none else withPiece (.char c) (pieces rest)

def isHighSurrogate (n : Nat) : Bool := 0xD800 ≤ n && n ≤ 0xDBFF

def isLowSurrogate (n : Nat) : Bool := 0xDC00 ≤ n && n ≤ 0xDFFF

/-- Joins the pieces. A high surrogate needs a low one right behind it, and the other way round. -/
def joined : List Piece → Option (List Char)
  | [] => some []
  | .char c :: more => (joined more).map (c :: ·)
  | .unit high :: .unit low :: more =>
    if isHighSurrogate high && isLowSurrogate low then
      (joined more).map (Char.ofNat (0x10000 + (high - 0xD800) * 0x400 + (low - 0xDC00)) :: ·)
    else if isHighSurrogate high || isLowSurrogate high then none
    else (joined (.unit low :: more)).map (Char.ofNat high :: ·)
  | .unit n :: more =>
    if isHighSurrogate n || isLowSurrogate n then none else (joined more).map (Char.ofNat n :: ·)

def Literal.ofPieces (pieces : List Piece) : Literal :=
  match joined pieces with
  | some cs => .text (String.ofList cs)
  | none => .unpaired

/-- `afterWord word cs` is what follows `word` in `cs`. -/
def afterWord (word cs : List Char) : Option (List Char) :=
  if word <+: cs then some (cs.drop word.length) else none

/-- A point with at least one digit, or nothing; says whether there was one. -/
def fraction : List Char → Option (Bool × List Char)
  | '.' :: cs => if cs.takeWhile Char.isDigit = [] then none else some (true, cs.dropWhile Char.isDigit)
  | cs => some (false, cs)

/-- An exponent with at least one digit, or nothing; says whether there was one. -/
def exponent : List Char → Option (Bool × List Char)
  | c :: cs =>
    if c = 'e' ∨ c = 'E' then
      let digits := match cs with
        | '+' :: cs | '-' :: cs => cs
        | cs => cs
      if digits.takeWhile Char.isDigit = [] then none else some (true, digits.dropWhile Char.isDigit)
    else some (false, c :: cs)
  | [] => some (false, [])

/-- The number with these digits, once fraction and exponent are passed. -/
def numeral (negative : Bool) (digits rest : List Char) : Option (Token × List Char) :=
  match fraction rest with
  | none => none
  | some (fractional, rest) =>
    match exponent rest with
    | none => none
    | some (scaled, rest) =>
      let n := Numeral.value digits
      if fractional ∨ scaled ∨ negative ∧ n = 0 then some (.real, rest)
      else some (.integer (if negative then -(n : Int) else n), rest)

/-- A number without sign: no leading zeros. -/
def unsigned (negative : Bool) (cs : List Char) : Option (Token × List Char) :=
  match cs.takeWhile Char.isDigit with
  | [] => none
  | d :: digits =>
    if d = '0' ∧ digits ≠ [] then none else numeral negative (d :: digits) (cs.dropWhile Char.isDigit)

/-- The word at the start of a text, and what follows it. -/
def token : List Char → Option (Token × List Char)
  | [] => none
  | '\x7b' :: cs => some (.openBrace, cs)
  | '\x7d' :: cs => some (.closeBrace, cs)
  | '[' :: cs => some (.openBracket, cs)
  | ']' :: cs => some (.closeBracket, cs)
  | ',' :: cs => some (.comma, cs)
  | ':' :: cs => some (.colon, cs)
  | 'n' :: cs => (afterWord ['u', 'l', 'l'] cs).map (.null, ·)
  | 't' :: cs => (afterWord ['r', 'u', 'e'] cs).map (.bool true, ·)
  | 'f' :: cs => (afterWord ['a', 'l', 's', 'e'] cs).map (.bool false, ·)
  | '"' :: cs => (pieces cs).map fun (pieces, rest) => (.string (.ofPieces pieces), rest)
  | '-' :: cs => unsigned true cs
  | cs => unsigned false cs

theorem withPiece_eq_some {piece : Piece} {read : Option (List Piece × List Char)} {ps : List Piece}
    {rest : List Char} (done : withPiece piece read = some (ps, rest)) : ∃ qs, read = some (qs, rest) := by
  obtain ⟨⟨qs, rest'⟩, found, same⟩ := Option.map_eq_some_iff.1 done
  cases same
  exact ⟨qs, found⟩

theorem length_pieces_lt {cs rest : List Char} {ps : List Piece} (read : pieces cs = some (ps, rest)) :
    rest.length < cs.length := by
  fun_induction pieces cs generalizing ps rest with
  | case1 | case4 | case6 | case7 => cases read
  | case2 =>
    cases read
    simp
  | case3 _ _ _ _ _ _ _ ih | case5 _ _ _ _ _ ih | case8 _ _ _ _ _ _ ih =>
    obtain ⟨qs, found⟩ := withPiece_eq_some read
    have := ih found
    simp only [List.length_cons]
    omega

theorem length_afterWord_le {word cs rest : List Char} (read : afterWord word cs = some rest) :
    rest.length ≤ cs.length := by
  unfold afterWord at read
  split at read
  · cases read
    simp
  · cases read

theorem length_fraction_le {cs rest : List Char} {b : Bool} (read : fraction cs = some (b, rest)) :
    rest.length ≤ cs.length := by
  have shorter (l : List Char) := (List.dropWhile_suffix (l := l) Char.isDigit).length_le
  unfold fraction at read
  grind

theorem length_exponent_le {cs rest : List Char} {b : Bool} (read : exponent cs = some (b, rest)) :
    rest.length ≤ cs.length := by
  have shorter (l : List Char) := (List.dropWhile_suffix (l := l) Char.isDigit).length_le
  unfold exponent at read
  grind

theorem length_numeral_le {cs rest digits : List Char} {negative : Bool} {t : Token}
    (read : numeral negative digits cs = some (t, rest)) : rest.length ≤ cs.length := by
  unfold numeral at read
  split at read
  · cases read
  · rename_i pointed
    split at read
    · cases read
    · rename_i scaled
      have first := length_fraction_le pointed
      have second := length_exponent_le scaled
      grind

theorem length_unsigned_lt {cs rest : List Char} {negative : Bool} {t : Token}
    (read : unsigned negative cs = some (t, rest)) : rest.length < cs.length := by
  have parts : (cs.takeWhile Char.isDigit).length + (cs.dropWhile Char.isDigit).length = cs.length := by
    rw [← List.length_append, List.takeWhile_append_dropWhile]
  unfold unsigned at read
  split at read
  · cases read
  · rename_i digits
    split at read
    · cases read
    · have shorter := length_numeral_le read
      rw [digits, List.length_cons] at parts
      omega

theorem length_token_lt {cs rest : List Char} {t : Token} (read : token cs = some (t, rest)) :
    rest.length < cs.length := by
  unfold token at read
  split at read
  case h_1 => cases read
  case h_2 | h_3 | h_4 | h_5 | h_6 | h_7 =>
    cases read
    simp
  case h_8 | h_9 | h_10 =>
    obtain ⟨_, after, same⟩ := Option.map_eq_some_iff.1 read
    cases same
    exact Nat.lt_succ_of_le (length_afterWord_le after)
  case h_11 =>
    obtain ⟨_, after, same⟩ := Option.map_eq_some_iff.1 read
    cases same
    exact Nat.lt_succ_of_lt (length_pieces_lt after)
  case h_12 => exact Nat.lt_succ_of_lt (length_unsigned_lt read)
  case h_13 => exact length_unsigned_lt read

def isSpace (c : Char) : Bool := c = ' ' || c = '\t' || c = '\n' || c = '\r'

/-- Cuts a text into words. -/
def tokens (cs : List Char) : Option (List Token) :=
  match cs with
  | [] => some []
  | c :: rest =>
    if isSpace c then tokens rest
    else
      match _read : token (c :: rest) with
      | some (t, rest') => (tokens rest').map (t :: ·)
      | none => none
termination_by cs.length
decreasing_by
  · simp
  · exact length_token_lt _read

end DialMenu.Json
