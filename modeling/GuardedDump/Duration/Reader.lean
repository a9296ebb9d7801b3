import GuardedDump.Duration.Basic
import GuardedDump.Duration.Fraction
import GuardedDump.Text.Numeral
import GuardedDump.Text.Quoted

namespace GuardedDump.Duration

inductive Fault where
  | invalid
  | missingUnit
  | unknownUnit (unit : String)
  deriving DecidableEq

def Fault.message (source : String) : Fault → String
  | .invalid => "time: invalid duration " ++ Text.byteQuoted source
  | .missingUnit => "time: missing unit in duration " ++ Text.byteQuoted source
  | .unknownUnit unit =>
    "time: unknown unit " ++ Text.byteQuoted unit ++ " in duration " ++ Text.byteQuoted source

def unit? (name : String) : Option Nat :=
  if name = "ns" then some 1
  else if name = "us" || name = "\u00B5s" || name = "\u03BCs" then some 1000
  else if name = "ms" then some 1000000
  else if name = "s" then some 1000000000
  else if name = "m" then some 60000000000
  else if name = "h" then some 3600000000000
  else none

def isDigit (c : Char) : Bool :=
  (Numeral.digit? c.toNat).isSome

def isUnitChar (c : Char) : Bool :=
  !(c == '.' || isDigit c)

def digitsValue (digits : List Char) : Nat :=
  digits.foldl (fun value c => 10 * value + (c.toNat - 48)) 0

/-- Fraction digits as numerator and number of decimal places. Digits from the first that would
carry the numerator beyond `bound` on are ignored. -/
def fractionValue : List Char → Nat → Nat → Nat × Nat
  | [], numerator, places => (numerator, places)
  | c :: rest, numerator, places =>
    let next := 10 * numerator + (c.toNat - 48)
    if Nat.blt ((bound - 1) / 10) numerator || Nat.blt bound next then (numerator, places)
    else fractionValue rest next (places + 1)

def fractionPart : List Char → List Char × List Char
  | '.' :: rest => (rest.takeWhile isDigit, rest.dropWhile isDigit)
  | text => ([], text)

def component (text : List Char) : Except Fault (Nat × List Char) :=
  let whole := text.takeWhile isDigit
  let value := digitsValue whole
  let (fraction, rest) := fractionPart (text.dropWhile isDigit)
  if Nat.blt bound value || (whole.isEmpty && fraction.isEmpty) then .error .invalid
  else
    let name := rest.takeWhile isUnitChar
    if name.isEmpty then .error .missingUnit
    else
      match unit? (String.ofList name) with
      | none => .error (.unknownUnit (String.ofList name))
      | some unit =>
        let (numerator, places) := fractionValue fraction 0 0
        let total := value * unit + fractionOf unit numerator places
        if Nat.blt (bound / unit) value || Nat.blt bound total then .error .invalid
        else .ok (total, rest.dropWhile isUnitChar)

/-- Sum of the components in 64 unsigned bits. Each takes at least one character, so the length of
the text bounds their number. -/
def components : Nat → List Char → Nat → Except Fault Nat
  | 0, _, sum => .ok sum
  | _ + 1, [], sum => .ok sum
  | more + 1, text, sum =>
    match component text with
    | .error fault => .error fault
    | .ok (value, rest) =>
      let next := (sum + value) % (2 * bound)
      if Nat.blt bound next then .error .invalid else components more rest next

def ofChars (text : List Char) : Except Fault Duration :=
  let (negative, body) := Numeral.sign text
  if body = ['0'] then .ok zero
  else if body.isEmpty then .error .invalid
  else
    match components body.length body 0 with
    | .error fault => .error fault
    | .ok size =>
      if negative then .ok ⟨-(size : Int)⟩
      else if Nat.ble bound size then .error .invalid
      else .ok ⟨size⟩

def parse (text : String) : Except Fault Duration :=
  ofChars text.toList

end GuardedDump.Duration
