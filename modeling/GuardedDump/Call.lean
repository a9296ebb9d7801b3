import GuardedDump.Task

/-!
# Calls in atomic steps

Operations that touch a gate or the roster are not atomic: other threads may act between their
steps. A call is the list of tasks a thread has still to do, and `Call.step` does the next atomic
part of the first one. A task that waits for a gate has no step until the gate is owned, and
`Call.proceed?` lets it wait for the mutex of a table as well.

Writing a guarded value is a check followed by the parts of the dump. A survey lists every lock
of the roster; it holds a lock while it lists it, and gives a hold it took back even after a
failure.
-/

namespace GuardedDump

structure Call where
  ctx : Context
  tasks : List Task
  writer : Writer
  receipt : Receipt
  panic : Option Panic

namespace Call

def start (ctx : Context) (tasks : List Task) (sink : Sink) : Call where
  ctx := ctx
  tasks := tasks
  writer := .ofSink sink
  receipt := ⟨0, none⟩
  panic := none

def thread (call : Call) : Thread := call.ctx.thread

def isDone (call : Call) : Bool := call.tasks.isEmpty

def weight (locks : Nat) (call : Call) : Nat :=
  Task.weights locks call.tasks

def next (call : Call) (task : Task) : Call :=
  { call with tasks := task :: call.tasks }

def crash (call : Call) (panic : Panic) : Call :=
  { call with tasks := [], panic := some panic }

def unwind (call : Call) : Call :=
  { call with tasks := call.tasks.filter Task.isLeave }

/-- A panic in a write closes its meters and leaves only the duty to give back holds. -/
def abandon (call : Call) (panic : Panic) : Call :=
  { call with writer := call.writer.close, panic := some panic }.unwind

/-- Take in the receipt of a write; a failure ends the call, unless nobody looks at it. -/
def settle (call : Call) (role : Role) (receipt : Receipt) : Call :=
  match role, receipt.failure with
  | .inner _, _ => call
  | _, none => { call with receipt }
  | .result, some _ => { call with receipt }.unwind
  | .block title, some failure =>
    { call with receipt := ⟨receipt.count, some (.wrap title failure)⟩ }.unwind

/-! ### Entering and leaving -/

def surveyPurpose : String := "dump all locks"

def stepEnter (world : World) (call : Call) (id : LockId) (access : Access) (purpose : String)
    (point : EnterPoint) : Option (World × Call) :=
  let t := call.thread
  let lock := world.lock id
  let remark (stage : Stage) : Remark := ⟨access, stage, purpose, t, call.ctx.origin⟩
  let proceed (world : World) (point : EnterPoint) : Option (World × Call) :=
    some (world, call.next (.enter id access purpose point))
  match point with
  | .consult =>
    match lock.consult t access with
    | (.error panic, lock) => some (world.setLock id lock, call.crash panic)
    | (.ok .fresh, lock) => proceed (world.setLock id lock) .ask
    | (.ok .reentered, lock) => proceed (world.setLock id lock) .reentered
  | .ask =>
    proceed ((world.logLine t lock.logger (lock.remark (remark .requested))).setLock id
      (lock.ask t access)) (.wait world.now)
  | .wait since =>
    if lock.owns t access then proceed world (.record (.between since world.now)) else none
  | .record waited =>
    let hold : Hold := ⟨access.mode, purpose, world.now, call.ctx.origin, 1⟩
    proceed (world.setLock id (lock.record t hold)) (.tally waited)
  | .tally waited =>
    some ((world.logLine t lock.logger (lock.timedRemark waited (remark .acquisition))).setLock id
      ((lock.tally access).tallyWait waited), call)
  | .reentered =>
    some ((world.logLine t lock.logger (lock.remark (remark .reentered))).setLock id
      (lock.tally access), call)

def stepLeave (world : World) (call : Call) (id : LockId) (access : Access)
    (point : LeavePoint) : Option (World × Call) :=
  let t := call.thread
  let lock := world.lock id
  match point with
  | .drop =>
    match lock.drop t access with
    | (.error panic, lock) => some (world.setLock id lock, call.crash panic)
    | (.ok left, lock) =>
      match left, access with
      | none, .shared => some (world.setLock id lock, call)
      | left, _ => some (world.setLock id lock, call.next (.leave id access (.unlatch left)))
  | .unlatch hold =>
    some (world.setLock id (lock.unlatch t access), call.next (.leave id access (.remark hold)))
  | .remark none => some (world, call.crash .recordLeft)
  | .remark (some hold) =>
    let line := lock.timedRemark (hold.age world.now) ⟨access, .held, hold.purpose, t, hold.origin⟩
    some (world.logLine t lock.logger line, call)

/-! ### Closing -/

def closeWarning (lock : Lock) : String :=
  "[" ++ lock.name ++ "] WARNING: Attempting to close lock with " ++ Numeral.ofNat lock.table.size ++
    " holder(s)"

def stepClose (world : World) (call : Call) (id : LockId) : World × Call :=
  let lock := world.lock id
  if lock.table.entries.isEmpty then (world, call.next (.retire id))
  else (world.log call.thread lock.logger (closeWarning lock), call)

def stepRetire (world : World) (call : Call) (id : LockId) : World × Call :=
  ({ world with roster := world.roster.strike (world.lock id).name id }, call)

/-! ### Writing -/

def stepDemand (world : World) (call : Call) (role : Role) (p : Precondition) (value : Value) :
    World × Call :=
  match world.demand (call.ctx.inside role.way) p with
  | (.error panic, world) => (world, call.abandon panic)
  | (.ok (some v), world) => (world, call.settle role ⟨0, some v.toFailure⟩)
  | (.ok none, world) =>
    (world, { call with writer := call.writer.push }.next (.dump role p value))

/-- The next part of a dump. A guarded value inside is a write of its own, whose receipt nobody
looks at. -/
def stepDump (world : World) (call : Call) (role : Role) (p : Precondition) :
    Value → World × Call
  | .done => (world, { call with writer := call.writer.pop.2 }.settle role call.writer.pop.1)
  | .bytes part rest =>
    (world, { call with writer := call.writer.put part }.next (.dump role p rest))
  | .listing lock selection rest =>
    let lines := (world.lock lock).payloads selection world.now
    (world, { call with writer := call.writer.putAll lines }.next (.dump role p rest))
  | .guarded way precondition inner rest =>
    (world, (call.next (.dump role p rest)).next
      (.demand (.inner (role.way.further way)) precondition inner))
  | .raise message => (world, call.abandon (.raised message))

/-! ### Surveying -/

def surveyHeader (count : Nat) (selection : Selection) : String :=
  "=== Lock Status ===\nTotal Registered Locks: " ++ Numeral.ofNat count ++ "\nActive Filters: " ++
    selection.label ++ "\n\n"

def stepSurvey (world : World) (call : Call) (selection : Selection) : World × Call :=
  let locks := world.roster.ordered
  let (receipt, writer) := call.writer.write (Text.bytes (surveyHeader locks.length selection))
  match receipt.failure with
  | some _ => (world, { call with writer, receipt }.unwind)
  | none =>
    (world, { call with
      writer
      tasks := locks.map (fun entry => .visit entry.2 selection) ++ call.tasks })

/-- A lock the caller holds is listed as it is; any other is held while it is listed. -/
def stepVisit (world : World) (call : Call) (id : LockId) (selection : Selection) : World × Call :=
  let lock := world.lock id
  let listing : Task :=
    .demand (.block ("dump " ++ lock.name)) { checker := .lock id } (.listing id selection .done)
  if lock.hasHold call.thread then (world, call.next listing)
  else
    (world, ((call.next (.leaving id .shared)).next listing).next
      (.entering id .shared surveyPurpose))

/-! ### One step -/

/-- Do the next atomic part of a call. There is none if the call is done or waits for a gate. -/
def step (world : World) (call : Call) : Option (World × Call) :=
  match call.tasks with
  | [] => none
  | task :: rest =>
    let after := { call with tasks := rest }
    match task with
    | .enter id access purpose point => stepEnter world after id access purpose point
    | .leave id access point => stepLeave world after id access point
    | .close id => some (stepClose world after id)
    | .retire id => some (stepRetire world after id)
    | .survey selection => some (stepSurvey world after selection)
    | .visit id selection => some (stepVisit world after id selection)
    | .demand role p value => some (stepDemand world after role p value)
    | .dump role p value => some (stepDump world after role p value)

def waits (world : World) (call : Call) : Bool :=
  match call.tasks with
  | [] => false
  | task :: _ => (task.table? call.thread).any fun id => (world.lock id).internal.isSome

def proceed? (world : World) (call : Call) : Option (World × Call) :=
  if call.waits world then none else call.step world

theorem proceed?_of_done {call : Call} (done : call.isDone = true) (world : World) :
    call.proceed? world = none := by
  have none : call.step world = none := by
    rw [step, List.isEmpty_iff.mp done]
  simp only [proceed?, none, ite_self]

theorem step_of_proceed? {world : World} {call : Call} {next : World × Call}
    (onward : call.proceed? world = some next) : call.step world = some next := by
  unfold proceed? at onward
  split at onward
  · cases onward
  · exact onward

end Call

inductive Operation where
  | enter (lock : LockId) (access : Access) (purpose : String)
  | leave (lock : LockId) (access : Access)
  | close (lock : LockId)
  | survey (selections : List Selection) (sink : Sink)
  | write (precondition : Precondition) (value : Value) (sink : Sink)

def Operation.call (ctx : Context) : Operation → Call
  | enter lock access purpose => .start ctx [.entering lock access purpose] .unlimited
  | leave lock access => .start ctx [.leaving lock access] .unlimited
  | close lock => .start ctx [.close lock] .unlimited
  | survey selections sink => .start ctx [.survey (.ofList selections)] sink
  | write precondition value sink => .start ctx [.demand .result precondition value] sink

end GuardedDump
