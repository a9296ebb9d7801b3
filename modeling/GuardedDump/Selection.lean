import GuardedDump.Mode

namespace GuardedDump

structure Selection where
  bits : UInt8
  deriving DecidableEq

namespace Selection

def none : Selection := ⟨0⟩

def shared : Selection := ⟨1⟩

def exclusive : Selection := ⟨2⟩

def union (a b : Selection) : Selection := ⟨a.bits ||| b.bits⟩

def all : Selection := shared.union exclusive

/-- The union of several selections; no selection at all means everything. -/
def ofList : List Selection → Selection
  | [] => all
  | selections => selections.foldl union none

def hasShared (s : Selection) : Bool :=
  (s.bits &&& shared.bits).toNat != 0

def hasExclusive (s : Selection) : Bool :=
  (s.bits &&& exclusive.bits).toNat != 0

def shows (s : Selection) : Mode → Bool
  | .shared => s.hasShared
  | .exclusive => s.hasExclusive
  | .other _ => true

def label (s : Selection) : String :=
  if s.bits.toNat == 0 then "None"
  else
    match s.hasShared, s.hasExclusive with
    | true, true => "Shared, Exclusive"
    | true, false => "Shared"
    | false, true => "Exclusive"
    | false, false => ""

end Selection

end GuardedDump
