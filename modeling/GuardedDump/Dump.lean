import GuardedDump.Report
import GuardedDump.Writer

namespace GuardedDump

inductive Checker where
  | lock (id : LockId)
  /-- Any other rule: the error it hands out for a thread, if any. -/
  | rule (verdict : Thread → Option FailureId)

structure Precondition where
  checker : Checker := .lock World.mainLock
  self : Option Thread := none
  handler : Option Handler := none

inductive Value where
  | done
  | bytes (part : List UInt8) (rest : Value)
  | listing (lock : LockId) (selection : Selection) (rest : Value)
  | guarded (way : Way) (precondition : Precondition) (inner rest : Value)
  | raise (message : String)

namespace World

def violationOf (world : World) (ctx : Context) (self : Thread) :
    Checker → Option Violation × World
  | .lock id => ((world.lock id).check self .shared ctx.callSite, world)
  | .rule verdict =>
    match verdict self with
    | none => (none, world)
    | some id =>
      let (found, failures) := world.failures.hand id self ctx.callSite
      (found, { world with failures })

def demand (world : World) (ctx : Context) (p : Precondition) :
    Except Panic (Option Violation) × World :=
  match world.violationOf ctx (p.self.getD ctx.thread) p.checker with
  | (none, world) => (.ok none, world)
  | (some v, world) =>
    match world.report ctx v p.handler with
    | (.ok (), world) => (.ok (some v), world)
    | (.error panic, world) => (.error panic, world)

end World

abbrev Dumped (α : Type) := Except Panic α × Writer × World

namespace Value

def text (part : String) (rest : Value) : Value :=
  .bytes (Text.bytes part) rest

def size : Value → Nat
  | done => 0
  | bytes _ rest => rest.size + 1
  | listing _ _ rest => rest.size + 1
  | guarded _ _ inner rest => inner.size + rest.size + 3
  | raise _ => 1

/-- Dump a value. Receipts of its writes are ignored; the meters remember them. -/
def dump (ctx : Context) : Value → Writer → World → Dumped Unit
  | done, writer, world => (.ok (), writer, world)
  | bytes part rest, writer, world => rest.dump ctx (writer.put part) world
  | listing lock selection rest, writer, world =>
    rest.dump ctx (writer.putAll ((world.lock lock).payloads selection world.now)) world
  | guarded way precondition inner rest, writer, world =>
    match world.demand (ctx.inside way) precondition with
    | (.error panic, world) => (.error panic, writer, world)
    | (.ok (some _), world) => rest.dump ctx writer world
    | (.ok none, world) =>
      match inner.dump (ctx.inside way) writer.push world with
      | (.error panic, writer, world) => (.error panic, writer.pop.2, world)
      | (.ok (), writer, world) => rest.dump ctx writer.pop.2 world
  | raise message, writer, world => (.error (.raised message), writer, world)

end Value

namespace World

def writeUnguarded (world : World) (ctx : Context) (value : Value) (writer : Writer) :
    Dumped Receipt :=
  match value.dump ctx writer.push world with
  | (.error panic, writer, world) => (.error panic, writer.pop.2, world)
  | (.ok (), writer, world) => (.ok writer.pop.1, writer.pop.2, world)

def write (world : World) (ctx : Context) (p : Precondition) (value : Value) (writer : Writer) :
    Dumped Receipt :=
  match world.demand ctx p with
  | (.error panic, world) => (.error panic, writer, world)
  | (.ok (some v), world) => (.ok ⟨0, some v.toFailure⟩, writer, world)
  | (.ok none, world) => world.writeUnguarded ctx value writer

def writeAny (world : World) (ctx : Context) (p : Option Precondition) (value : Value)
    (writer : Writer) : Dumped Receipt :=
  match p with
  | none => world.writeUnguarded ctx value writer
  | some p => world.write ctx p value writer

def writeBetween (world : World) (ctx : Context) (p : Precondition) (value : Value)
    (lead tail : String) (writer : Writer) : Dumped Unit :=
  match world.write ctx p value (writer.put (Text.bytes lead)) with
  | (.error panic, writer, world) => (.error panic, writer, world)
  | (.ok _, writer, world) => (.ok (), writer.put (Text.bytes tail), world)

def render (world : World) (ctx : Context) (p : Option Precondition) (value : Value) :
    Except Panic (List UInt8) × World :=
  match world.writeAny ctx p value (.ofSink .unlimited) with
  | (.error panic, _, world) => (.error panic, world)
  | (.ok _, writer, world) => (.ok writer.sink.stored, world)

def panicNote (verb : Char) (panic : Panic) : String :=
  "%!" ++ verb.toString ++ "(PANIC=Format method: " ++ panic.message ++ ")"

/-- The dump as part of a formatted text. A panic does not leave the formatter: what was written
stays, and a note follows it. -/
def format (world : World) (ctx : Context) (p : Option Precondition) (value : Value) (verb : Char)
    (lead tail : String) : List UInt8 × World :=
  match world.writeAny ctx p value ((Writer.ofSink .unlimited).put (Text.bytes lead)) with
  | (.error panic, writer, world) =>
    (((writer.put (Text.bytes (panicNote verb panic))).put (Text.bytes tail)).sink.stored, world)
  | (.ok _, writer, world) => ((writer.put (Text.bytes tail)).sink.stored, world)

end World

end GuardedDump
