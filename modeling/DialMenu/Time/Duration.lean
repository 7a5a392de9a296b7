import DialMenu.Text.Basic

/-!
Lengths of time, to the nanosecond, and the short text that error messages show for them.
-/

namespace DialMenu

structure Duration where
  seconds : UInt64
  nanos : Fin 1000000000 := 0
deriving DecidableEq, Inhabited

namespace Duration

def ofSeconds (seconds : UInt64) : Duration := { seconds }

/-- No time at all. -/
def zero : Duration := ofSeconds 0

/-- Nanoseconds above a whole second are carried over. -/
def ofParts (seconds nanos : Nat) : Duration :=
  { seconds := UInt64.ofNat (seconds + nanos / 1000000000), nanos := Fin.ofNat 1000000000 nanos }

/-- The whole duration in nanoseconds. -/
def total (d : Duration) : Nat := d.seconds.toNat * 1000000000 + d.nanos

/-- A fraction of `places` decimal places, without its trailing zeros and without a point if nothing is left. -/
private def fraction (places n : Nat) : List Char :=
  match ((Numeral.padded places n).reverse.dropWhile (· = '0')).reverse with
  | [] => []
  | digits => '.' :: digits

/-- The largest unit with a whole part, then the exact fraction: `1.5s`, `999.999µs`, `0ns`. -/
def text (d : Duration) : String :=
  let n := d.nanos.val
  String.ofList <|
    if d.seconds ≠ 0 then Numeral.ofNat d.seconds.toNat ++ fraction 9 n ++ ['s']
    else if 1000000 ≤ n then Numeral.ofNat (n / 1000000) ++ fraction 6 (n % 1000000) ++ ['m', 's']
    else if 1000 ≤ n then Numeral.ofNat (n / 1000) ++ fraction 3 (n % 1000) ++ ['µ', 's']
    else Numeral.ofNat n ++ ['n', 's']

end Duration

end DialMenu
