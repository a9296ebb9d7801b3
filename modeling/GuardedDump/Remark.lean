import GuardedDump.Mode
import GuardedDump.Thread

namespace GuardedDump

structure Logger where
  name : String
  deriving DecidableEq

def Logger.standard : Logger := ⟨"default"⟩

inductive Stage where
  | requested
  | reentered
  | acquisition
  | held
  deriving DecidableEq

def Stage.label : Stage → String
  | .requested => "requested"
  | .reentered => "re-entered"
  | .acquisition => "acquisition"
  | .held => "held"

structure Remark where
  access : Access
  stage : Stage
  purpose : String
  thread : Thread
  origin : String

namespace Remark

def action (remark : Remark) : String :=
  remark.access.title ++ " lock " ++ remark.stage.label

def tail (remark : Remark) : String :=
  " (" ++ remark.thread.label ++ ", " ++ remark.origin ++ ")"

end Remark

end GuardedDump
