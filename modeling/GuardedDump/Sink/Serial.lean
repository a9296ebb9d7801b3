import GuardedDump.Sink

namespace GuardedDump

structure SerialSink where
  owner : Option Thread
  sink : Sink

namespace SerialSink

def ofSink (sink : Sink) : SerialSink := ⟨none, sink⟩

def take? (serial : SerialSink) (t : Thread) : Option SerialSink :=
  match serial.owner with
  | none => some { serial with owner := some t }
  | some _ => none

def giveBack (serial : SerialSink) : SerialSink :=
  { serial with owner := none }

def write? (serial : SerialSink) (t : Thread) (payload : List UInt8) :
    Option (Receipt × SerialSink) :=
  (serial.take? t).map fun taken =>
    let (receipt, sink) := taken.sink.write payload
    (receipt, giveBack { taken with sink })

/-- A write under way: what will come of it, and the bytes still to be stored. -/
structure Transfer where
  receipt : Receipt
  rest : List UInt8

def begin? (serial : SerialSink) (t : Thread) (payload : List UInt8) :
    Option (Transfer × SerialSink) :=
  (serial.take? t).map fun taken =>
    let receipt := taken.sink.policy (taken.sink.calls + 1) taken.sink.stored payload
    (⟨receipt, payload.take receipt.count⟩, taken)

def store (serial : SerialSink) (byte : UInt8) : SerialSink :=
  { serial with sink := { serial.sink with stored := serial.sink.stored ++ [byte] } }

def finish (serial : SerialSink) : SerialSink :=
  giveBack { serial with sink := { serial.sink with calls := serial.sink.calls + 1 } }

theorem foldl_store (serial : SerialSink) (bytes : List UInt8) :
    bytes.foldl store serial =
      { serial with sink := { serial.sink with stored := serial.sink.stored ++ bytes } } := by
  induction bytes generalizing serial with
  | nil => simp
  | cons byte more ih => simp [ih, store]

theorem write?_eq (serial : SerialSink) (t : Thread) (payload : List UInt8) :
    serial.write? t payload = (serial.begin? t payload).map fun (transfer, taken) =>
      (transfer.receipt, (transfer.rest.foldl store taken).finish) := by
  simp only [write?, begin?, Option.map_map, foldl_store]
  rfl

end SerialSink

end GuardedDump
