import GuardedDump.Mode
import GuardedDump.Thread

namespace GuardedDump

structure Finding where
  lock : String
  thread : Thread
  required : Mode
  holding : Bool
  heldMode : Mode
  /-- Place of the offending call, empty while unknown. -/
  caller : String
  deriving DecidableEq

namespace Finding

def heldLabel (finding : Finding) : String :=
  if finding.holding then finding.heldMode.label else "none"

def text (finding : Finding) : String :=
  finding.lock ++ " not held in " ++ finding.required.label ++ " mode by " ++ finding.thread.label ++
    " (held: " ++ finding.heldLabel ++ ")"

def locate (site : String) (finding : Finding) : Finding :=
  if finding.caller.isEmpty then { finding with caller := site } else finding

end Finding

inductive Failure where
  | plain (text : String)
  | notHeld
  | wrap (context : String) (inner : Failure)
  | join (members : List Failure)
  | violation (finding : Finding) (cause : Option Failure)

structure Violation where
  finding : Finding
  cause : Option Failure

def Violation.toFailure (v : Violation) : Failure :=
  .violation v.finding v.cause

namespace Failure

mutual
def text : Failure → String
  | plain message => message
  | notHeld => "lock not held"
  | wrap context inner => context ++ ": " ++ text inner
  | join members => texts members
  | violation finding none => finding.text
  | violation finding (some cause) => finding.text ++ ": " ++ text cause
def texts : List Failure → String
  | [] => ""
  | [member] => text member
  | member :: next :: more => text member ++ "\n" ++ texts (next :: more)
end

mutual
def isNotHeld : Failure → Bool
  | plain _ => false
  | notHeld => true
  | wrap _ inner => isNotHeld inner
  | join members => anyNotHeld members
  | violation _ _ => true
def anyNotHeld : List Failure → Bool
  | [] => false
  | member :: more => isNotHeld member || anyNotHeld more
end

end Failure

namespace Violation

def text (v : Violation) : String :=
  v.toFailure.text

end Violation

def mainLockName : String := "mutator lock"

def Finding.missing (self : Thread) (site : String) : Finding where
  lock := mainLockName
  thread := self
  required := .shared
  holding := false
  heldMode := .shared
  caller := site

end GuardedDump
