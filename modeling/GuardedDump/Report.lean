import GuardedDump.Trace
import GuardedDump.World

namespace GuardedDump.World

def warn (world : World) (t : Thread) (key text : String) : Bool × World :=
  if world.warned.contains key then (false, world)
  else (true, { world with warned := key :: world.warned }.log t world.hooks.diagnostics text)

def forgetWarnings (world : World) : World :=
  { world with warned := [] }

def warningKey (v : Violation) : String :=
  v.finding.lock ++ "@" ++ v.finding.caller

def warningText (v : Violation) : String :=
  "WARNING: lock invariant violated: " ++ v.text ++ " (at " ++ v.finding.caller ++ ")"

def fatalText (v : Violation) (trace : String) : String :=
  "FATAL: lock invariant violated: " ++ v.text ++ "\nat " ++ v.finding.caller ++ "\n" ++
    Trace.prune trace

def abort (world : World) (ctx : Context) (v : Violation) : World :=
  (world.log ctx.thread world.hooks.diagnostics (fatalText v ctx.trace)).emit ctx.thread (.exited 1)

def deliver (world : World) (t : Thread) (handler : Handler) (v : Violation) :
    Except Panic Unit × World :=
  let delivered := world.emit t (.delivered handler v)
  match handler.panic with
  | none => (.ok (), delivered)
  | some text => (.error (.raised text), delivered)

/-- Send a violation where the settings of the moment say. `override` comes with the call. -/
def report (world : World) (ctx : Context) (v : Violation) (override : Option Handler) :
    Except Panic Unit × World :=
  match world.hooks.response with
  | .warn => (.ok (), (world.warn ctx.thread (warningKey v) (warningText v)).2)
  | _ =>
    match override, world.hooks.handler with
    | some handler, _ => world.deliver ctx.thread handler v
    | none, some handler => world.deliver ctx.thread handler v
    | none, none => (.ok (), world.abort ctx v)

end GuardedDump.World
