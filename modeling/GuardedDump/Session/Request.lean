import GuardedDump.Settings
import GuardedDump.Session.Basic

namespace GuardedDump

inductive Command where
  | newLock (name : String) (timeout : Duration) (logger : Logger)
  | enterUnknown (lock : LockId) (access : Access)
  /-- Put a hold into the table without touching the gate. -/
  | inject (lock : LockId) (thread : Thread) (mode : Mode) (purpose origin : String) (count : Int)
      (age : Duration)
  | setTimeout (lock : LockId) (timeout : Duration)
  | setLevel (lock : LockId) (level : Int)
  | name (lock : LockId)
  | state (lock : LockId)
  | self
  | isHeld (lock : LockId) (thread : Thread)
  | check (lock : LockId) (thread : Thread) (required : Access)
  | insist (lock : LockId) (thread : Thread) (required : Access)
  | list (lock : LockId) (selection : Selection) (sink : Sink)
  | roster
  | writeUnguarded (value : Value) (sink : Sink)
  | writeBetween (precondition : Precondition) (value : Value) (lead tail : String) (sink : Sink)
  | render (precondition : Option Precondition) (value : Value)
  | format (precondition : Option Precondition) (value : Value) (verb : Char) (lead tail : String)
  | setHandler (handler : Option Handler)
  | setResponse (response : Response)
  | restore (index : Nat)
  | response
  | setLogger (logger : Option Logger)
  | abort (violation : Violation)
  | report (violation : Violation) (handler : Option Handler)
  | warn (key text : String)
  | forgetWarnings
  | apply (settings : Settings)
  | readAndApply (reader : Settings.Reader) (environment : String → Option String)

inductive Request where
  | operation (operation : Operation)
  | command (command : Command)

inductive Reply where
  | nothing
  | created (lock : LockId)
  | flag (value : Bool)
  | index (value : Nat)
  | word (text : String)
  | rendered (bytes : List UInt8)
  | thread (t : Thread)
  | state (now : Instant) (lock : Lock)
  | held (shared exclusive : Bool)
  | failure (failure : Option Failure)
  | sink (sink : Sink)
  | surveyed (sink : Sink) (failure : Option Failure)
  | written (sink : Sink) (receipt : Receipt)
  | roster (entries : List (String × LockId))

inductive Outcome where
  | returned (reply : Reply)
  | panicked (panic : Panic)
  | blocked
  | busy

structure Woken where
  thread : Thread
  tag : Nat
  outcome : Outcome
  events : List Happening

structure Answer where
  outcome : Outcome
  events : List Happening
  woken : List Woken

def defaultPurpose : String := "unspecified"

def Operation.reply (call : Call) : Operation → Reply
  | enter _ _ _ => .nothing
  | leave _ _ => .nothing
  | close _ => .nothing
  | survey _ _ => .surveyed call.writer.sink call.receipt.failure
  | write _ _ _ => .written call.writer.sink call.receipt

def Pending.outcome (p : Pending) : Outcome :=
  if p.call.isDone then
    match p.call.panic with
    | some panic => .panicked panic
    | none => .returned (p.operation.reply p.call)
  else .blocked

namespace Session

def returned (session : Session) (reply : Reply) : Outcome × Session :=
  (.returned reply, session)

def withWorld (session : Session) (world : World) (reply : Reply) : Outcome × Session :=
  (.returned reply, { session with world })

def setHook (session : Session) (change : Restore × Hooks) : Outcome × Session :=
  (.returned (.index session.restores.length),
    { session with
      world := { session.world with hooks := change.2 }
      restores := session.restores ++ [change.1] })

def ofResult (session : Session) (reply : Reply) : Except Panic Unit × World → Outcome × Session
  | (.ok (), world) => (.returned reply, { session with world })
  | (.error panic, world) => (.panicked panic, { session with world })

def applied (session : Session) (settings : Settings) : Outcome × Session :=
  match session.world.apply settings with
  | .error error => session.returned (.failure (some (.plain error.message)))
  | .ok world => session.withWorld world (.failure none)

def perform (session : Session) (ctx : Context) : Command → Outcome × Session
  | .newLock name timeout logger =>
    let (id, world) := session.world.newLock name timeout logger
    session.withWorld world (.created id)
  | .enterUnknown id access =>
    match (session.world.lock id).consult .unknown access with
    | (.error panic, lock) =>
      (.panicked panic, { session with world := session.world.setLock id lock })
    | (.ok _, lock) => session.withWorld (session.world.setLock id lock) .nothing
  | .inject id thread mode purpose origin count age =>
    let hold : Hold := ⟨mode, purpose, session.world.now + age.neg.ns, origin, count⟩
    session.withWorld (session.world.modifyLock id fun lock => lock.record thread hold) .nothing
  | .setTimeout id timeout =>
    session.withWorld (session.world.modifyLock id fun lock => { lock with timeout }) .nothing
  | .setLevel id level =>
    session.withWorld (session.world.modifyLock id fun lock => lock.setLevel level) (.flag true)
  | .name id => session.returned (.word (session.world.lock id).name)
  | .state id => session.returned (.state session.world.now (session.world.lock id))
  | .self => session.returned (.thread ctx.thread)
  | .isHeld id thread =>
    let lock := session.world.lock id
    session.returned (.held (lock.hasHold thread) (lock.hasExclusiveHold thread))
  | .check id thread required =>
    let found := (session.world.lock id).check thread required ctx.callSite
    session.returned (.failure (found.map Violation.toFailure))
  | .insist id thread required =>
    match (session.world.lock id).check thread required ctx.callSite with
    | none => session.returned .nothing
    | some v => session.ofResult .nothing (session.world.report ctx v none)
  | .list id selection sink =>
    let lines := (session.world.lock id).payloads selection session.world.now
    session.returned (.sink ((Writer.ofSink sink).putAll lines).sink)
  | .roster => session.returned (.roster session.world.roster.ordered)
  | .writeUnguarded value sink =>
    match session.world.writeUnguarded ctx value (.ofSink sink) with
    | (.error panic, _, world) => (.panicked panic, { session with world })
    | (.ok receipt, writer, world) => session.withWorld world (.written writer.sink receipt)
  | .writeBetween precondition value lead tail sink =>
    match session.world.writeBetween ctx precondition value lead tail (.ofSink sink) with
    | (.error panic, _, world) => (.panicked panic, { session with world })
    | (.ok (), writer, world) => session.withWorld world (.sink writer.sink)
  | .render precondition value =>
    match session.world.render ctx precondition value with
    | (.error panic, world) => (.panicked panic, { session with world })
    | (.ok bytes, world) => session.withWorld world (.rendered bytes)
  | .format precondition value verb lead tail =>
    let (bytes, world) := session.world.format ctx precondition value verb lead tail
    session.withWorld world (.rendered bytes)
  | .setHandler handler => session.setHook (session.world.hooks.setHandler handler)
  | .setResponse response => session.setHook (session.world.hooks.setResponse response)
  | .restore index =>
    match session.restores[index]? with
    | none => session.returned .nothing
    | some token =>
      session.withWorld { session.world with hooks := session.world.hooks.restore token } .nothing
  | .response => session.returned (.word session.world.hooks.response.label)
  | .setLogger logger =>
    session.withWorld { session.world with hooks := session.world.hooks.setLogger logger } .nothing
  | .abort violation => session.withWorld (session.world.abort ctx violation) .nothing
  | .report violation handler => session.ofResult .nothing (session.world.report ctx violation handler)
  | .warn key text =>
    let (logged, world) := session.world.warn ctx.thread key text
    session.withWorld world (.flag logged)
  | .forgetWarnings => session.withWorld session.world.forgetWarnings .nothing
  | .apply settings => session.applied settings
  | .readAndApply reader environment =>
    match reader environment with
    | .error error => session.returned (.failure (some (.plain error.message)))
    | .ok settings => session.applied settings

def collect (session : Session) : List Pending × Session :=
  (session.pending.filter fun p => p.call.isDone,
    { session with pending := session.pending.filter fun p => !p.call.isDone })

def woken (session : Session) (p : Pending) : Woken where
  thread := p.call.thread
  tag := p.tag
  outcome := p.outcome
  events := session.eventsOf p.call.thread p.since

def sortWoken (calls : List Woken) : List Woken :=
  Order.sort (fun a b => Nat.ble a.thread.id.toNat b.thread.id.toNat) calls

/-- Start an operation of an idle thread. Blocked operations that it sets free end with it. -/
def operate (session : Session) (ctx : Context) (tag : Nat) (operation : Operation) :
    Answer × Session :=
  let since := session.world.history.length
  let (ended, session) := (session.start ctx tag operation).collect
  let own := ended.filter fun p => p.call.thread == ctx.thread
  let others := ended.filter fun p => p.call.thread != ctx.thread
  let woken := sortWoken (others.map session.woken)
  match own with
  | [] => (⟨.blocked, [], woken⟩, session)
  | p :: _ => (⟨p.outcome, session.eventsOf ctx.thread since, woken⟩, session)

def execute (session : Session) (ctx : Context) (tag : Nat) (request : Request) : Answer × Session :=
  if session.isBusy ctx.thread then (⟨.busy, [], []⟩, session)
  else
    match request with
    | .operation operation => session.operate ctx tag operation
    | .command command =>
      let since := session.world.history.length
      let (outcome, session) := session.perform ctx command
      (⟨outcome, session.eventsOf ctx.thread since, []⟩, session)

/-- Let time pass. It stands still while an operation waits; then there is no new state. -/
def advance? (session : Session) (d : Duration) : Option Session :=
  if session.pending.isEmpty then some { session with world := session.world.advance d } else none

end Session

end GuardedDump
