import GuardedDump.Call
import GuardedDump.Sink.Serial

/-!
# Threads at one sink

Several threads write guarded values, each its own, to a sink that they share. A scribe is one of
them: a call whose payloads go to the shared sink instead of a sink of its own, byte by byte. It
waits where it has a payload and another scribe has the mutex. Any scribe may be the next to move.
-/

namespace GuardedDump

structure Scribe where
  call : Call
  transfer : Option SerialSink.Transfer

namespace Scribe

def isDone (scribe : Scribe) : Bool :=
  scribe.call.isDone && scribe.transfer.isNone

def result? (scribe : Scribe) : Option (Except Panic Receipt) :=
  if scribe.isDone then
    match scribe.call.panic with
    | some panic => some (.error panic)
    | none => some (.ok scribe.call.receipt)
  else none

def think (world : World) (serial : SerialSink) (scribe : Scribe) :
    Option (World × SerialSink × Scribe) :=
  (scribe.call.step world).map fun (world, call) => (world, serial, { scribe with call })

/-- Do the next atomic part. There is none if the scribe is done or waits for the mutex. -/
def step (world : World) (serial : SerialSink) (scribe : Scribe) :
    Option (World × SerialSink × Scribe) :=
  let { call, transfer } := scribe
  match transfer with
  | some ⟨receipt, byte :: rest⟩ => some (world, serial.store byte, ⟨call, some ⟨receipt, rest⟩⟩)
  | some ⟨receipt, []⟩ =>
    some (world, serial.finish, ⟨{ call with writer := call.writer.credit receipt }, none⟩)
  | none =>
    match call.tasks with
    | .dump role p (.bytes part rest) :: tasks =>
      if call.writer.isOpen then
        (serial.begin? call.thread part).map fun (transfer, serial) =>
          (world, serial, ⟨{ call with tasks := .dump role p rest :: tasks }, some transfer⟩)
      else scribe.think world serial
    | .dump role p (.listing lock selection rest) :: tasks =>
      -- The lock is looked at once; its lines are payloads of their own.
      let lines := (world.lock lock).payloads selection world.now
      some (world, serial,
        ⟨{ call with tasks := .dump role p (lines.foldr .bytes rest) :: tasks }, none⟩)
    | _ => scribe.think world serial

end Scribe

structure Job where
  ctx : Context
  precondition : Precondition
  value : Value

def Job.scribe (job : Job) : Scribe where
  call := (Operation.write job.precondition job.value .unlimited).call job.ctx
  transfer := none

structure Desk where
  world : World
  serial : SerialSink
  scribes : List Scribe

namespace Desk

def start (world : World) (sink : Sink) (jobs : List Job) : Desk where
  world := world
  serial := .ofSink sink
  scribes := jobs.map Job.scribe

def isDone (desk : Desk) : Bool := desk.scribes.all Scribe.isDone

def step? (desk : Desk) (i : Nat) : Option Desk :=
  desk.scribes[i]?.bind fun scribe =>
    (scribe.step desk.world desk.serial).map fun (world, serial, scribe) =>
      ⟨world, serial, desk.scribes.set i scribe⟩

def run? (desk : Desk) : List Nat → Option Desk
  | [] => some desk
  | i :: moves => (desk.step? i).bind fun desk => desk.run? moves

end Desk

end GuardedDump
