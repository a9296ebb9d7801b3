import GuardedDump.Lock
import GuardedDump.Response

namespace GuardedDump

/-- Someone who takes violations. A handler may panic after it has taken one. -/
structure Handler where
  name : String
  panic : Option String
  deriving DecidableEq

structure Hooks where
  handler : Option Handler
  response : Response
  logger : Option Logger
  deriving DecidableEq

inductive Restore where
  | handler (previous : Option Handler)
  | response (previous : Response)
  deriving DecidableEq

namespace Hooks

def initial : Hooks := ⟨none, .fatal, none⟩

def setHandler (hooks : Hooks) (handler : Option Handler) : Restore × Hooks :=
  (.handler hooks.handler, { hooks with handler })

def setResponse (hooks : Hooks) (response : Response) : Restore × Hooks :=
  (.response hooks.response, { hooks with response })

def restore (hooks : Hooks) : Restore → Hooks
  | .handler previous => { hooks with handler := previous }
  | .response previous => { hooks with response := previous }

def setLogger (hooks : Hooks) (logger : Option Logger) : Hooks :=
  { hooks with logger }

def diagnostics (hooks : Hooks) : Logger :=
  hooks.logger.getD .standard

end Hooks

end GuardedDump
