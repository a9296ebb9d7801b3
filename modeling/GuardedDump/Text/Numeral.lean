namespace GuardedDump.Numeral

def ofNat (n : Nat) : String :=
  String.ofList (Nat.toDigits 10 n)

def ofInt : Int → String
  | .ofNat n => ofNat n
  | .negSucc n => "-" ++ ofNat (n + 1)

inductive Fault where
  | malformed
  | outOfRange
  deriving DecidableEq

def Fault.message : Fault → String
  | .malformed => "invalid syntax"
  | .outOfRange => "value out of range"

def digit? (code : Nat) : Option Nat :=
  if Nat.ble 48 code && Nat.ble code 57 then some (code - 48) else none

def readUpTo (limit : Nat) : List Nat → Nat → Except Fault Nat
  | [], sofar => .ok sofar
  | code :: rest, sofar =>
    match digit? code with
    | none => .error .malformed
    | some d =>
      if Nat.blt limit (10 * sofar + d) then .error .outOfRange
      else readUpTo limit rest (10 * sofar + d)

def readNat (limit : Nat) : List Nat → Except Fault Nat
  | [] => .error .malformed
  | codes => readUpTo limit codes 0

def sign : List Char → Bool × List Char
  | '-' :: rest => (true, rest)
  | '+' :: rest => (false, rest)
  | text => (false, text)

/-- An optional sign and digits, within 32 bits. The digits are first held to the unsigned range,
so of two faults the one further left is reported. -/
def readInt32 (text : List Char) : Except Fault Int :=
  let (negative, digits) := sign text
  match readNat 0xFFFFFFFF (digits.map Char.toNat) with
  | .error fault => .error fault
  | .ok n =>
    if negative then
      if Nat.blt 0x80000000 n then .error .outOfRange else .ok (-(n : Int))
    else
      if Nat.blt n 0x80000000 then .ok (n : Int) else .error .outOfRange

end GuardedDump.Numeral
