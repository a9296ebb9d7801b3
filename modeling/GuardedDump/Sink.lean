import GuardedDump.Failure

namespace GuardedDump

structure Receipt where
  count : Nat
  failure : Option Failure

structure Sink where
  /-- Receipt for a call number (from one), the bytes stored and the payload. -/
  policy : Nat → List UInt8 → List UInt8 → Receipt
  stored : List UInt8
  calls : Nat

namespace Sink

def unlimited : Sink := ⟨fun _ _ payload => ⟨payload.length, none⟩, [], 0⟩

/-- One write. Bytes beyond the accepted count are lost. -/
def write (sink : Sink) (payload : List UInt8) : Receipt × Sink :=
  let receipt := sink.policy (sink.calls + 1) sink.stored payload
  (receipt, { sink with
    stored := sink.stored ++ payload.take receipt.count
    calls := sink.calls + 1 })

end Sink

end GuardedDump
