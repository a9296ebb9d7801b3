namespace GuardedDump.Duration

/-- `mantissa / 2 ^ shift`, where a negative shift multiplies. -/
structure Dyadic where
  mantissa : Nat
  shift : Int

namespace Dyadic

def scaleUp (n : Nat) : Int → Nat
  | .ofNat k => n * Nat.pow 2 k
  | .negSucc _ => n

def roundDiv (num den : Nat) : Nat :=
  let quotient := num / den
  let twice := 2 * (num % den)
  if Nat.blt den twice || (twice == den && quotient % 2 == 1) then quotient + 1 else quotient

/-- `num / den` rounded to 53 significant bits. -/
def nearest (num den : Nat) : Dyadic :=
  let guess : Int := 52 - ((num.log2 : Int) - (den.log2 : Int))
  let whole := scaleUp num guess / scaleUp den (-guess)
  let shift := if Nat.blt whole 0x10000000000000 then guess + 1 else guess
  ⟨roundDiv (scaleUp num shift) (scaleUp den (-shift)), shift⟩

def mul (a b : Dyadic) : Dyadic :=
  let product := nearest (a.mantissa * b.mantissa) 1
  ⟨product.mantissa, product.shift + a.shift + b.shift⟩

def div (a b : Dyadic) : Dyadic :=
  let quotient := nearest a.mantissa b.mantissa
  ⟨quotient.mantissa, quotient.shift + a.shift - b.shift⟩

def powerOfTen (places : Nat) : Dyadic :=
  Nat.repeat (mul ⟨10, 0⟩) places ⟨1, 0⟩

def floor (a : Dyadic) : Nat :=
  scaleUp a.mantissa (-a.shift) / scaleUp 1 a.shift

end Dyadic

def fractionOf (unit numerator places : Nat) : Nat :=
  if numerator = 0 then 0
  else
    let perPlace := Dyadic.div ⟨unit, 0⟩ (Dyadic.powerOfTen places)
    ((Dyadic.nearest numerator 1).mul perPlace).floor

end GuardedDump.Duration
