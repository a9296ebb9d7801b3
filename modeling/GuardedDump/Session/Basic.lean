import GuardedDump.Call

namespace GuardedDump

structure Pending where
  tag : Nat
  since : Nat
  operation : Operation
  call : Call

structure Session where
  world : World
  pending : List Pending
  restores : List Restore

namespace Session

def initial (failures : Failures) : Session :=
  ⟨.initial failures, [], []⟩

def isBusy (session : Session) (t : Thread) : Bool :=
  session.pending.any fun p => p.call.thread == t

def stepFirst (world : World) : List Pending → Option (World × List Pending)
  | [] => none
  | p :: more =>
    match p.call.proceed? world with
    | some (world, call) => some (world, { p with call } :: more)
    | none =>
      match stepFirst world more with
      | none => none
      | some (world, stepped) => some (world, p :: stepped)

def run : Nat → World → List Pending → World × List Pending
  | 0, world, pending => (world, pending)
  | bound + 1, world, pending =>
    match stepFirst world pending with
    | none => (world, pending)
    | some (world, pending) => run bound world pending

def weight (locks : Nat) : List Pending → Nat
  | [] => 0
  | p :: more => p.call.weight locks + weight locks more

/-- Let every call go on until it is done or waits. -/
def settle (session : Session) : Session :=
  let bound := weight session.world.roster.size session.pending
  let (world, pending) := run bound session.world session.pending
  { session with world, pending }

def start (session : Session) (ctx : Context) (tag : Nat) (operation : Operation) : Session :=
  settle { session with
    pending := ⟨tag, session.world.history.length, operation, operation.call ctx⟩ :: session.pending }

def eventsOf (session : Session) (t : Thread) (since : Nat) : List Happening :=
  ((session.world.history.drop since).filter fun event => event.thread == t).map Event.happening

end Session

end GuardedDump
