import GuardedDump.Mode
import GuardedDump.Thread

namespace GuardedDump

inductive Panic where
  | unknownThread (lock : String) (thread : Thread)
  | sharedUnderExclusive (lock : String) (thread : Thread)
  | exclusiveUnderHold (lock : String) (thread : Thread) (held : Mode)
  | notHolder (lock : String) (thread : Thread) (access : Access)
  /-- An exclusive release left a record behind. -/
  | recordLeft
  | raised (text : String)
  deriving DecidableEq

def Panic.message : Panic → String
  | .unknownThread lock thread =>
    "[" ++ lock ++ "] cannot track a hold for an " ++ thread.label
  | .sharedUnderExclusive lock thread =>
    "[" ++ lock ++ "] " ++ thread.label ++ " requested shared hold while holding it exclusively"
  | .exclusiveUnderHold lock thread held =>
    "[" ++ lock ++ "] " ++ thread.label ++ " requested exclusive hold while holding it " ++ held.label
  | .notHolder lock thread access =>
    "[" ++ lock ++ "] attempting to release a " ++ access.mode.label ++ " hold not held by " ++
      thread.label
  | .recordLeft => "exclusive hold released with a record left behind"
  | .raised text => text

end GuardedDump
