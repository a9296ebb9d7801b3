import GuardedDump.Duration.Basic
import GuardedDump.Text.Numeral

namespace GuardedDump.Duration

def fractionDigits : Nat → Nat → List Char
  | 0, _ => []
  | places + 1, n => fractionDigits places (n / 10) ++ [Nat.digitChar (n % 10)]

/-- `n / 10 ^ places` in decimal notation without trailing zeros. -/
def decimal (places n : Nat) : String :=
  let digits := ((fractionDigits places n).reverse.dropWhile (· == '0')).reverse
  let whole := Numeral.ofNat (n / Nat.pow 10 places)
  if digits.isEmpty then whole else whole ++ "." ++ String.ofList digits

def subsecond (n : Nat) : String :=
  if n = 0 then "0s"
  else if Nat.blt n 1000 then decimal 0 n ++ "ns"
  else if Nat.blt n 1000000 then decimal 3 n ++ "\u00B5s"
  else decimal 6 n ++ "ms"

def seconds (n : Nat) : String :=
  let minutes := n / 60000000000
  let tail := decimal 9 (n % 60000000000) ++ "s"
  if minutes = 0 then tail
  else if minutes / 60 = 0 then Numeral.ofNat minutes ++ "m" ++ tail
  else Numeral.ofNat (minutes / 60) ++ "h" ++ Numeral.ofNat (minutes % 60) ++ "m" ++ tail

def text (d : Duration) : String :=
  let size := d.ns.natAbs
  let shown := if Nat.blt size 1000000000 then subsecond size else seconds size
  if d.ns < 0 then "-" ++ shown else shown

end GuardedDump.Duration
