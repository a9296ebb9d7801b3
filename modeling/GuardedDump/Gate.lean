import GuardedDump.Mode
import GuardedDump.Thread

namespace GuardedDump

structure Gate where
  readers : List Thread
  writer : Option Thread
  waitingReaders : List Thread
  waitingWriters : List Thread

namespace Gate

def vacant : Gate := ⟨[], none, [], []⟩

def owns (gate : Gate) (t : Thread) : Access → Bool
  | .shared => gate.readers.contains t
  | .exclusive => gate.writer == some t

def request (gate : Gate) (t : Thread) : Access → Gate
  | .shared =>
    if gate.writer.isNone && gate.waitingWriters.isEmpty then
      { gate with readers := t :: gate.readers }
    else { gate with waitingReaders := gate.waitingReaders ++ [t] }
  | .exclusive =>
    if gate.writer.isNone && gate.readers.isEmpty && gate.waitingWriters.isEmpty then
      { gate with writer := some t }
    else { gate with waitingWriters := gate.waitingWriters ++ [t] }

def passToWriter (gate : Gate) : Gate :=
  match gate.waitingWriters with
  | [] => gate
  | next :: rest => { gate with writer := some next, waitingWriters := rest }

def release (gate : Gate) (t : Thread) : Access → Gate
  | .shared =>
    let left := { gate with readers := gate.readers.erase t }
    if left.readers.isEmpty then left.passToWriter else left
  | .exclusive =>
    let left := { gate with writer := none }
    if left.waitingReaders.isEmpty then left.passToWriter
    else { left with readers := left.waitingReaders, waitingReaders := [] }

end Gate

end GuardedDump
