import GuardedDump.Text.Numeral

namespace GuardedDump

inductive Access where
  | shared
  | exclusive
  deriving DecidableEq

inductive Mode where
  | shared
  | exclusive
  | other (code : Int)
  deriving DecidableEq

namespace Mode

def ofCode (code : Int) : Mode :=
  if code = 0 then shared else if code = 1 then exclusive else other code

def label : Mode → String
  | shared => "shared"
  | exclusive => "exclusive"
  | other code => "LockMode(" ++ Numeral.ofInt code ++ ")"

/-- A hold in this mode meets a demand for `access`: any hold is good enough to read. -/
def grants (mode : Mode) : Access → Bool
  | .shared => true
  | .exclusive => mode == exclusive

end Mode

namespace Access

def mode : Access → Mode
  | shared => .shared
  | exclusive => .exclusive

def title : Access → String
  | shared => "Shared"
  | exclusive => "Exclusive"

end Access

end GuardedDump
