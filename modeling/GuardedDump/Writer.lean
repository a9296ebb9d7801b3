import GuardedDump.Sink

namespace GuardedDump

structure Meter where
  count : Nat
  failure : Option Failure

namespace Meter

def fresh : Meter := ⟨0, none⟩

def receipt (meter : Meter) : Receipt := ⟨meter.count, meter.failure⟩

def add (meter : Meter) (receipt : Receipt) : Meter :=
  ⟨meter.count + receipt.count, receipt.failure⟩

end Meter

structure Writer where
  meters : List Meter
  sink : Sink

namespace Writer

def ofSink (sink : Sink) : Writer := ⟨[], sink⟩

def send (payload : List UInt8) : List Meter → Sink → Receipt × Writer
  | [], sink =>
    let (receipt, sink) := sink.write payload
    (receipt, ⟨[], sink⟩)
  | meter :: outer, sink =>
    match meter.failure with
    | some failure => (⟨0, some failure⟩, ⟨meter :: outer, sink⟩)
    | none =>
      let (receipt, writer) := send payload outer sink
      (receipt, ⟨meter.add receipt :: writer.meters, writer.sink⟩)

def write (writer : Writer) (payload : List UInt8) : Receipt × Writer :=
  send payload writer.meters writer.sink

def put (writer : Writer) (payload : List UInt8) : Writer :=
  (writer.write payload).2

def putAll (writer : Writer) (payloads : List (List UInt8)) : Writer :=
  payloads.foldl put writer

def push (writer : Writer) : Writer :=
  { writer with meters := .fresh :: writer.meters }

def pop (writer : Writer) : Receipt × Writer :=
  match writer.meters with
  | [] => (Meter.fresh.receipt, writer)
  | meter :: outer => (meter.receipt, { writer with meters := outer })

def close (writer : Writer) : Writer := ofSink writer.sink

def isOpen (writer : Writer) : Bool :=
  writer.meters.all fun meter => meter.failure.isNone

def credit (writer : Writer) (receipt : Receipt) : Writer :=
  { writer with meters := writer.meters.map (·.add receipt) }

theorem write_of_isOpen {writer : Writer} (opened : writer.isOpen = true) (payload : List UInt8) :
    writer.write payload = ((writer.sink.write payload).1,
      { writer with sink := (writer.sink.write payload).2 }.credit
        (writer.sink.write payload).1) := by
  obtain ⟨meters, sink⟩ := writer
  induction meters with
  | nil => rfl
  | cons meter outer ih =>
      simp only [isOpen, List.all_cons, Bool.and_eq_true, Option.isNone_iff_eq_none] at opened
      have sent := ih opened.2
      simp only [write, credit] at sent ⊢
      simp only [send, opened.1, sent, List.map_cons]

end Writer

end GuardedDump
