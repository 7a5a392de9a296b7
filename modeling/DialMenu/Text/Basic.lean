/-!
Characters that readers and writers of texts share: white space, decimal numerals, and bytes as hexadecimal digits, two
for each byte, the high one first.
-/

namespace DialMenu

namespace Text

/-- The code points of the Unicode property `White_Space`. -/
def isBlank (c : Char) : Bool :=
  let n := c.toNat
  (9 ≤ n && n ≤ 13) || n = 0x20 || n = 0x85 || n = 0xA0 || n = 0x1680 || (0x2000 ≤ n && n ≤ 0x200A) ||
    n = 0x2028 || n = 0x2029 || n = 0x202F || n = 0x205F || n = 0x3000

def skipBlanks (cs : List Char) : List Char := cs.dropWhile isBlank

/-- The text without the blanks at both ends. -/
def trimmed (cs : List Char) : List Char := (skipBlanks (skipBlanks cs).reverse).reverse

def trim (s : String) : String := String.ofList (trimmed s.toList)

end Text

namespace Numeral

/-- The digit for a number below ten. -/
def digit (n : Nat) : Char := Char.ofNat (48 + n % 10)

def digitValue (c : Char) : Nat := c.toNat - 48

/-- The shortest numeral of `n`. -/
def ofNat (n : Nat) : List Char :=
  if n < 10 then [digit n] else ofNat (n / 10) ++ [digit n]
termination_by n

def ofInt : Int → List Char
  | .ofNat n => ofNat n
  | .negSucc n => '-' :: ofNat (n + 1)

/-- The numeral of `n`, filled up with zeros on the left to at least `width` digits. -/
def padded (width n : Nat) : List Char :=
  List.replicate (width - (ofNat n).length) '0' ++ ofNat n

/-- The number that a list of digits denotes. -/
def value (cs : List Char) : Nat := cs.foldl (fun n c => 10 * n + digitValue c) 0

/-- At least one digit and nothing else. -/
def nat? (cs : List Char) : Option Nat :=
  if cs ≠ [] ∧ cs.all Char.isDigit then some (value cs) else none

/-- An integer with an optional sign of either kind. -/
def int? : List Char → Option Int
  | '-' :: cs => (nat? cs).map fun n => -(n : Int)
  | '+' :: cs => (nat? cs).map fun n => (n : Int)
  | cs => (nat? cs).map fun n => (n : Int)

/-- An integer with an optional sign that fits 64 bits. -/
def int64? (cs : List Char) : Option Int64 :=
  match int? cs with
  | some n => if -9223372036854775808 ≤ n ∧ n ≤ 9223372036854775807 then some (Int64.ofInt n) else none
  | none => none

theorem digitValue_digit {n : Nat} (small : n < 10) : digitValue (digit n) = n := by
  match n, small with
  | 0, _ | 1, _ | 2, _ | 3, _ | 4, _ | 5, _ | 6, _ | 7, _ | 8, _ | 9, _ => rfl

theorem digit_mod (n : Nat) : digit (n % 10) = digit n := by simp [digit]

theorem isDigit_digit (n : Nat) : (digit n).isDigit = true := by
  rw [← digit_mod]
  match n % 10, Nat.mod_lt n (by decide : 10 > 0) with
  | 0, _ | 1, _ | 2, _ | 3, _ | 4, _ | 5, _ | 6, _ | 7, _ | 8, _ | 9, _ => rfl

theorem value_append_digit (cs : List Char) (n : Nat) : value (cs ++ [digit n]) = 10 * value cs + n % 10 := by
  rw [← digit_mod]
  simp [value, digitValue_digit (Nat.mod_lt n (by decide : 10 > 0))]

theorem value_ofNat (n : Nat) : value (ofNat n) = n := by
  fun_induction ofNat n with
  | case1 n small => simpa [value, Nat.mod_eq_of_lt small] using digitValue_digit small
  | case2 n large ih =>
    rw [value_append_digit, ih]
    omega

theorem isDigit_of_mem_ofNat {n : Nat} {c : Char} (mem : c ∈ ofNat n) : c.isDigit = true := by
  fun_induction ofNat n with
  | case1 n small => simp_all [isDigit_digit]
  | case2 n large ih =>
    rcases List.mem_append.1 mem with inFront | last
    · exact ih inFront
    · simp_all [isDigit_digit]

theorem ofNat_ne_nil (n : Nat) : ofNat n ≠ [] := by
  rw [ofNat]
  split <;> simp

end Numeral

namespace Hex

/-- The lower case digit for a number below sixteen. -/
def digit (n : Nat) : Char := if n % 16 < 10 then Char.ofNat (48 + n % 16) else Char.ofNat (87 + n % 16)

/-- The number that a digit of either case stands for. -/
def digit? (c : Char) : Option Nat :=
  let n := c.toNat
  if 48 ≤ n ∧ n ≤ 57 then some (n - 48)
  else if 97 ≤ n ∧ n ≤ 102 then some (n - 87)
  else if 65 ≤ n ∧ n ≤ 70 then some (n - 55)
  else none

def ofByte (b : UInt8) : List Char := [digit (b.toNat / 16), digit (b.toNat % 16)]

def encode (bytes : List UInt8) : List Char := bytes.flatMap ofByte

def byte? (high low : Char) : Option UInt8 := do
  let h ← digit? high
  let l ← digit? low
  pure (UInt8.ofNat (16 * h + l))

def decode? : List Char → Option (List UInt8)
  | [] => some []
  | [_] => none
  | high :: low :: rest => do
    let b ← byte? high low
    let bytes ← decode? rest
    pure (b :: bytes)

theorem digit?_digit (n : Nat) : digit? (digit n) = some (n % 16) := by
  have reduced : digit n = digit (n % 16) := by simp [digit]
  have known : ∀ m < 16, digit? (digit m) = some m := by decide
  rw [reduced]
  exact known _ (Nat.mod_lt n (by decide))

theorem byte?_ofByte (b : UInt8) : byte? (digit (b.toNat / 16)) (digit (b.toNat % 16)) = some b := by
  have bound : b.toNat < 256 := b.toNat_lt
  have whole : 16 * (b.toNat / 16 % 16) + b.toNat % 16 % 16 = b.toNat := by omega
  simp only [byte?, digit?_digit, Option.bind_eq_bind, Option.bind_some, whole, Option.pure_def]
  simp

theorem decode?_encode (bytes : List UInt8) : decode? (encode bytes) = some bytes := by
  induction bytes with
  | nil => rfl
  | cons b bytes ih =>
    rw [show encode (b :: bytes) = digit (b.toNat / 16) :: digit (b.toNat % 16) :: encode bytes from rfl]
    simp [decode?, byte?_ofByte, ih]

end Hex

end DialMenu
