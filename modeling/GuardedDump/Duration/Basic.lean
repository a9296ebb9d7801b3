namespace GuardedDump

abbrev Instant := Int

structure Duration where
  ns : Int
  deriving DecidableEq

namespace Duration

def zero : Duration := ⟨0⟩

def microsecond : Duration := ⟨1000⟩

def second : Duration := ⟨1000000000⟩

def hour : Duration := ⟨3600000000000⟩

def bound : Nat := 0x8000000000000000

def least : Duration := ⟨-9223372036854775808⟩

def greatest : Duration := ⟨9223372036854775807⟩

def clamp (ns : Int) : Duration :=
  if ns < least.ns then least
  else if greatest.ns < ns then greatest
  else ⟨ns⟩

def between (earlier later : Instant) : Duration :=
  clamp (later - earlier)

/-- Two's complement negation: the least duration is its own negative. -/
def neg (d : Duration) : Duration :=
  if d.ns = least.ns then least else ⟨-d.ns⟩

def exceeds (d limit : Duration) : Bool :=
  decide (limit.ns < d.ns)

def isNegative (d : Duration) : Bool :=
  decide (d.ns < 0)

/-- The nearest multiple of a positive `unit`; a half goes away from zero. -/
def round (d unit : Duration) : Duration :=
  let size := d.ns.natAbs
  let step := unit.ns.natAbs
  let rest := size % step
  let rounded := if Nat.blt (rest + rest) step then size - rest else size + (step - rest)
  clamp (if d.ns < 0 then -(rounded : Int) else (rounded : Int))

end Duration

end GuardedDump
