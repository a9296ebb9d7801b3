import GuardedDump.Proofs.LogLines

/-!
# Levels and remarks erased

`hush` puts every lock back to the level that it was created with and takes the remarks of locks out
of the history. Nothing that a session does depends on what is erased here: a hushed session makes the
moves of the session itself (`Session.move?_hush`).
-/

namespace GuardedDump

namespace Lock

variable (lock : Lock) (t : Thread) (access : Access)

def hush (lock : Lock) : Lock := { lock with level := 1 }

@[simp] theorem hush_hush : lock.hush.hush = lock.hush := rfl

theorem consult_hush :
    lock.hush.consult t access =
      ((lock.consult t access).1, (lock.consult t access).2.hush) := by
  rw [consult_eq, consult_eq]
  simp only [hush]
  split
  · rfl
  · split
    · rfl
    · split <;> rfl
    · rfl

theorem drop_hush :
    lock.hush.drop t access = ((lock.drop t access).1, (lock.drop t access).2.hush) := by
  rw [drop_eq, drop_eq]
  simp only [hush]
  split
  · rfl
  · split
    · split <;> rfl
    · rfl

end Lock

namespace World

variable (world : World) (ctx : Context) (t : Thread) (id : LockId)

def hush (world : World) : World :=
  { world with
    locks := world.locks.map Lock.hush
    history := world.history.filter fun event => !event.isRemark }

@[simp] theorem hush_hush : world.hush.hush = world.hush := by
  simp only [hush, List.map_map, List.filter_filter, Bool.and_self]
  rfl

@[simp] theorem lock_hush : world.hush.lock id = (world.lock id).hush := by
  simp only [World.lock, hush, List.getD_eq_getElem?_getD, List.getElem?_map]
  cases world.locks[id]? <;> rfl

theorem seized_hush : world.hush.seized = world.seized :=
  List.any_map

@[simp] theorem hush_setLock (lock : Lock) :
    (world.setLock id lock).hush = world.hush.setLock id lock.hush := by
  simp only [hush, setLock, List.map_set]

theorem hush_logLine {logger : Logger} {line : Option String}
    (starts : ∀ text, line = some text → Text.startsWith text "[" = true) :
    (world.logLine t logger line).hush = world.hush := by
  cases line with
  | none => rfl
  | some text =>
      have remark : Event.isRemark ⟨t, .logged logger (logText text)⟩ = true :=
        logText_starts (starts text rfl)
      simp [logLine, log, emit, hush, remark]

@[simp] theorem hush_remark (lock : Lock) (r : Remark) (logger : Logger) :
    (world.logLine t logger (lock.remark r)).hush = world.hush :=
  world.hush_logLine t fun _ => Lock.remark_starts

@[simp] theorem hush_timedRemark (lock : Lock) (d : Duration) (r : Remark) (logger : Logger) :
    (world.logLine t logger (lock.timedRemark d r)).hush = world.hush :=
  world.hush_logLine t fun _ => Lock.timedRemark_starts

@[simp] theorem hush_closeWarning (lock : Lock) (logger : Logger) :
    (world.log t logger (Call.closeWarning lock)).hush = world.hush := by
  have starts (text : String) (same : some (Call.closeWarning lock) = some text) :
      Text.startsWith text "[" = true := Option.some.inj same ▸ lock.closeWarning_starts
  exact world.hush_logLine t starts

theorem hush_log {logger : Logger} {text start : String} {c : Char}
    (starts : Text.startsWith text start = true) (first : start.toList.head? = some c)
    (other : c ≠ '[') : (world.log t logger text).hush = world.hush.log t logger text := by
  have plain : Event.isRemark ⟨t, .logged logger (logText text)⟩ = false :=
    Text.startsWith_other first (by simp) other (logText_starts starts)
  simp [log, emit, hush, plain]

theorem warn_hush (v : Violation) :
    world.hush.warn t (warningKey v) (warningText v) =
      ((world.warn t (warningKey v) (warningText v)).1,
        (world.warn t (warningKey v) (warningText v)).2.hush) := by
  unfold warn
  rw [show world.hush.warned = world.warned from rfl]
  split
  · rfl
  · rw [hush_log _ t (warningText_starts v) (c := 'W') (by simp) (by decide)]
    rfl

theorem deliver_hush (handler : Handler) (v : Violation) :
    world.hush.deliver t handler v =
      ((world.deliver t handler v).1, (world.deliver t handler v).2.hush) := by
  have delivered : (world.emit t (.delivered handler v)).hush =
      world.hush.emit t (.delivered handler v) := by
    simp [emit, hush, Event.isRemark]
  unfold deliver
  rw [← delivered]
  cases handler.panic <;> rfl

theorem abort_hush (v : Violation) : world.hush.abort ctx v = (world.abort ctx v).hush := by
  have ended (before : World) : (before.emit ctx.thread (.exited 1)).hush =
      before.hush.emit ctx.thread (.exited 1) := by
    simp [emit, hush, Event.isRemark]
  unfold abort
  rw [ended, hush_log _ _ (fatalText_starts v ctx.trace) (c := 'F') (by simp) (by decide)]
  rfl

theorem report_hush (v : Violation) (override : Option Handler) :
    world.hush.report ctx v override =
      ((world.report ctx v override).1, (world.report ctx v override).2.hush) := by
  unfold report
  rw [show world.hush.hooks = world.hooks from rfl]
  split
  · rw [warn_hush]
  · split
    · exact world.deliver_hush ..
    · exact world.deliver_hush ..
    · rw [abort_hush]

theorem violationOf_hush (self : Thread) (checker : Checker) :
    world.hush.violationOf ctx self checker =
      ((world.violationOf ctx self checker).1, (world.violationOf ctx self checker).2.hush) := by
  cases checker with
  | lock id =>
      simp only [violationOf, lock_hush]
      rfl
  | rule verdict =>
      simp only [violationOf, show world.hush.failures = world.failures from rfl]
      split <;> rfl

theorem demand_hush (p : Precondition) :
    world.hush.demand ctx p = ((world.demand ctx p).1, (world.demand ctx p).2.hush) := by
  unfold demand
  rw [violationOf_hush]
  obtain ⟨found, after⟩ := world.violationOf ctx (p.self.getD ctx.thread) p.checker
  cases found with
  | none => rfl
  | some v =>
      simp only [report_hush]
      obtain ⟨result, last⟩ := after.report ctx v p.handler
      cases result <;> rfl

end World

def Dumped.hush {α : Type} (dumped : Dumped α) : Dumped α :=
  (dumped.1, dumped.2.1, dumped.2.2.hush)

theorem Value.dump_hush (ctx : Context) (value : Value) (writer : Writer) (world : World) :
    value.dump ctx writer world.hush = (value.dump ctx writer world).hush := by
  induction value generalizing ctx writer world with
  | done | raise => rfl
  | bytes part rest ih => exact ih ..
  | listing id selection rest ih =>
      simp only [Value.dump, World.lock_hush]
      exact ih ..
  | guarded way p inner rest within after =>
      simp only [Value.dump, World.demand_hush]
      obtain ⟨verdict, checked⟩ := world.demand (ctx.inside way) p
      rcases verdict with panic | (none | v)
      · rfl
      · simp only [within]
        obtain ⟨outcome, written, next⟩ := inner.dump (ctx.inside way) writer.push checked
        cases outcome with
        | error panic => rfl
        | ok => exact after ..
      · exact after ..

namespace World

variable (world : World) (ctx : Context)

theorem writeUnguarded_hush (value : Value) (writer : Writer) :
    world.hush.writeUnguarded ctx value writer = (world.writeUnguarded ctx value writer).hush := by
  unfold writeUnguarded
  rw [value.dump_hush]
  obtain ⟨outcome, written, next⟩ := value.dump ctx writer.push world
  cases outcome <;> rfl

theorem write_hush (p : Precondition) (value : Value) (writer : Writer) :
    world.hush.write ctx p value writer = (world.write ctx p value writer).hush := by
  unfold write
  rw [demand_hush]
  obtain ⟨verdict, checked⟩ := world.demand ctx p
  rcases verdict with panic | (none | v)
  · rfl
  · exact checked.writeUnguarded_hush ctx value writer
  · rfl

theorem writeAny_hush (p : Option Precondition) (value : Value) (writer : Writer) :
    world.hush.writeAny ctx p value writer = (world.writeAny ctx p value writer).hush := by
  cases p with
  | none => exact world.writeUnguarded_hush ctx value writer
  | some p => exact world.write_hush ctx p value writer

end World

namespace Call

variable (world : World) (call : Call)

def hushed (result : World × Call) : World × Call := (result.1.hush, result.2)

theorem stepEnter_hush (id : LockId) (access : Access) (purpose : String) (point : EnterPoint) :
    (stepEnter world.hush call id access purpose point).map hushed =
      (stepEnter world call id access purpose point).map hushed := by
  cases point with
  | consult =>
      simp only [stepEnter, World.lock_hush, Lock.consult_hush]
      obtain ⟨found, lock⟩ := (world.lock id).consult call.thread access
      rcases found with panic | (_ | _) <;> simp [hushed]
  | ask | tally | reentered =>
      simp only [stepEnter, World.lock_hush, Option.map_some, hushed, World.hush_setLock,
        World.hush_remark, World.hush_timedRemark, World.hush_hush]
      rfl
  | wait since =>
      simp only [stepEnter, World.lock_hush]
      rw [show (world.lock id).hush.owns = (world.lock id).owns from rfl]
      split
      · simp only [Option.map_some, hushed, World.hush_hush]
        rfl
      · rfl
  | record waited =>
      simp only [stepEnter, World.lock_hush, Option.map_some, hushed, World.hush_setLock,
        World.hush_hush]
      rfl

theorem stepLeave_hush (id : LockId) (access : Access) (point : LeavePoint) :
    (stepLeave world.hush call id access point).map hushed =
      (stepLeave world call id access point).map hushed := by
  cases point with
  | drop =>
      simp only [stepLeave, World.lock_hush, Lock.drop_hush]
      obtain ⟨result, lock⟩ := (world.lock id).drop call.thread access
      rcases result with panic | (_ | _) <;> cases access <;> simp [hushed]
  | unlatch left =>
      simp only [stepLeave, World.lock_hush, Option.map_some, hushed, World.hush_setLock,
        World.hush_hush]
      rfl
  | remark left =>
      cases left with
      | none => simp [stepLeave, hushed]
      | some hold => simp [stepLeave, hushed]

theorem waits_hush : call.waits world.hush = call.waits world := by
  simp only [waits, World.lock_hush]
  rfl

theorem step_hush : (call.step world.hush).map hushed = (call.step world).map hushed := by
  unfold step
  split
  · rfl
  case h_2 task rest tasks =>
    cases task with
    | enter id access purpose point => exact stepEnter_hush ..
    | leave id access point => exact stepLeave_hush ..
    | close id =>
        simp only [stepClose, World.lock_hush, Option.map_some]
        rw [show (world.lock id).hush.table = (world.lock id).table from rfl]
        split <;> simp [hushed]
    | retire id =>
        simp only [stepRetire, World.lock_hush]
        exact congrArg (fun quiet : World => some
          ({ quiet with roster := world.roster.strike (world.lock id).name id },
            { call with tasks := rest })) world.hush_hush
    | survey selection =>
        simp only [stepSurvey, Option.map_some]
        rw [show world.hush.roster = world.roster from rfl]
        split <;> simp [hushed]
    | visit id selection =>
        simp only [stepVisit, World.lock_hush, Option.map_some]
        rw [show (world.lock id).hush.hasHold = (world.lock id).hasHold from rfl]
        split <;> simp [hushed] <;> rfl
    | demand role p value =>
        simp only [stepDemand, World.demand_hush, Option.map_some]
        obtain ⟨verdict, checked⟩ := world.demand (call.ctx.inside role.way) p
        rcases verdict with panic | (none | v) <;> simp [hushed]
    | dump role p value =>
        cases value <;> simp [stepDump, hushed]
        rfl

theorem proceed?_hush :
    (call.proceed? world.hush).map hushed = (call.proceed? world).map hushed := by
  unfold proceed?
  rw [waits_hush]
  split
  · rfl
  · exact step_hush ..

end Call

namespace World

variable (world : World)

theorem newLock_hush (name : String) (timeout : Duration) (logger : Logger) :
    (world.hush.newLock name timeout logger).1 = (world.newLock name timeout logger).1 ∧
      (world.hush.newLock name timeout logger).2.hush =
        (world.newLock name timeout logger).2.hush := by
  constructor
  · exact List.length_map _
  · simp [newLock, hush, Lock.hush]

theorem modifyLock_hush (id : LockId) {f g : Lock → Lock}
    (same : ∀ lock, (f lock.hush).hush = (g lock).hush) :
    (world.hush.modifyLock id f).hush = (world.modifyLock id g).hush := by
  simp only [modifyLock, lock_hush, hush_setLock, hush_hush, same]

theorem log_hush (t : Thread) (logger : Logger) (text : String) :
    (world.hush.log t logger text).hush = (world.log t logger text).hush := by
  simp [log, emit, hush, Function.comp_def, Lock.hush]

end World

def Reply.hush : Reply → Reply
  | .state now lock => .state now lock.hush
  | reply => reply

def Outcome.hush : Outcome → Outcome
  | .returned reply => .returned reply.hush
  | outcome => outcome

def Pending.hush (p : Pending) : Pending := { p with since := 0 }

def Settings.unlevelled (settings : Settings) : Settings := { settings with level := 0 }

/-- The commands differ in the level that they give to a lock and in nothing else. -/
inductive Command.Retuned : Command → Command → Prop where
  | same {command} : Retuned command command
  | setLevel {id level level'} : Retuned (setLevel id level) (setLevel id level')
  | apply {settings settings'} (same : settings.unlevelled = settings'.unlevelled) :
      Retuned (apply settings) (apply settings')
  | readAndApply {reader reader' environment environment'}
      (same : (reader environment).map Settings.unlevelled =
        (reader' environment').map Settings.unlevelled) :
      Retuned (readAndApply reader environment) (readAndApply reader' environment')

inductive Move.Retuned : Move → Move → Prop where
  | same {move} : Retuned move move
  | retune {ctx : Context} {order order' : Command} (retuned : order.Retuned order') :
      Retuned (command ctx order) (command ctx order')

namespace Session

variable (session : Session) (ctx : Context)

def hush (session : Session) : Session where
  world := session.world.hush
  pending := session.pending.map Pending.hush
  restores := session.restores

def hushed (result : Outcome × Session) : Outcome × Session := (result.1.hush, result.2.hush)

theorem hush_pending : (session.pending.map Pending.hush).map Pending.hush =
    session.pending.map Pending.hush :=
  List.map_map

theorem withWorld_hush {world world' : World} (same : world.hush = world'.hush) {reply reply' : Reply}
    (replies : reply.hush = reply'.hush) :
    hushed (session.hush.withWorld world reply) = hushed (session.withWorld world' reply') := by
  simp only [hushed, withWorld, Outcome.hush, replies, hush, same, hush_pending]

theorem returned_hush {reply reply' : Reply} (replies : reply.hush = reply'.hush) :
    hushed (session.hush.returned reply) = hushed (session.returned reply') :=
  session.withWorld_hush session.world.hush_hush replies

theorem panicked_hush (panic : Panic) {world world' : World} (same : world.hush = world'.hush) :
    hushed (.panicked panic, { session.hush with world }) =
      hushed (.panicked panic, { session with world := world' }) := by
  simp only [hushed, Outcome.hush, hush, same, hush_pending]

theorem setHook_hush (change : Restore × Hooks) :
    hushed (session.hush.setHook change) = hushed (session.setHook change) := by
  have worlds := congrArg (fun quiet : World => { quiet with hooks := change.2 })
    session.world.hush_hush
  simp only [hushed, setHook, hush, hush_pending]
  exact congrArg (fun world => (_, (⟨world, _, _⟩ : Session))) worlds

theorem ofResult_hush (reply : Reply) {result result' : Except Panic Unit × World}
    (same : (result.1, result.2.hush) = (result'.1, result'.2.hush)) :
    hushed (session.hush.ofResult reply result) = hushed (session.ofResult reply result') := by
  obtain ⟨outcome, world⟩ := result
  obtain ⟨outcome', world'⟩ := result'
  obtain ⟨rfl, worlds⟩ := Prod.mk.inj same
  cases outcome with
  | ok => exact session.withWorld_hush worlds rfl
  | error panic => exact session.panicked_hush panic worlds

theorem applied_hush {settings settings' : Settings}
    (same : settings.unlevelled = settings'.unlevelled) :
    hushed (session.hush.applied settings) = hushed (session.applied settings') := by
  obtain ⟨response, timeout, level⟩ := settings
  obtain ⟨response', timeout', level'⟩ := settings'
  cases same
  have tuned := session.world.modifyLock_hush World.mainLock
    (f := fun lock => { lock.setLevel level with timeout })
    (g := fun lock => { lock.setLevel level' with timeout }) fun _ => rfl
  unfold applied World.apply
  cases Response.parse? response with
  | none => exact session.returned_hush rfl
  | some answer =>
      by_cases negative : timeout.isNegative = true
      · simp only [negative, if_true]
        exact session.returned_hush rfl
      · simp only [negative]
        refine session.withWorld_hush ?_ rfl
        exact congrArg (fun world : World =>
          { world with hooks := (session.world.hooks.setResponse answer).2 }) tuned

theorem perform_hush {command command' : Command} (retuned : command.Retuned command') :
    hushed (session.hush.perform ctx command) = hushed (session.perform ctx command') := by
  cases retuned with
  | @setLevel id level level' =>
      have tuned := session.world.modifyLock_hush id (f := fun lock => lock.setLevel level)
        (g := fun lock => lock.setLevel level') fun _ => rfl
      exact session.withWorld_hush tuned rfl
  | apply same => exact session.applied_hush same
  | @readAndApply reader reader' environment environment' same =>
      simp only [perform]
      cases first : reader environment <;> cases second : reader' environment' <;>
        rw [first, second] at same
      · cases same
        exact session.returned_hush rfl
      · cases same
      · cases same
      · exact session.applied_hush (Except.ok.inj same)
  | same =>
      cases command with
      | newLock name timeout logger =>
          obtain ⟨number, worlds⟩ := session.world.newLock_hush name timeout logger
          exact session.withWorld_hush worlds (congrArg (Reply.hush ∘ Reply.created) number)
      | enterUnknown id access =>
          rw [perform_enterUnknown, perform_enterUnknown]
          simp only [hush, World.lock_hush]
          exact session.panicked_hush _ session.world.hush_hush
      | inject id thread mode purpose origin count age =>
          have tuned (hold : Hold) := session.world.modifyLock_hush id
            (f := fun lock => lock.record thread hold) (g := fun lock => lock.record thread hold)
            fun _ => rfl
          exact session.withWorld_hush (tuned _) rfl
      | setTimeout id timeout =>
          have tuned := session.world.modifyLock_hush id (f := fun lock => { lock with timeout })
            (g := fun lock => { lock with timeout }) fun _ => rfl
          exact session.withWorld_hush tuned rfl
      | setLevel id level =>
          have tuned := session.world.modifyLock_hush id (f := fun lock => lock.setLevel level)
            (g := fun lock => lock.setLevel level) fun _ => rfl
          exact session.withWorld_hush tuned rfl
      | name | state | isHeld | check | list =>
          refine session.returned_hush ?_
          simp only [hush, World.lock_hush]
          rfl
      | insist id thread required =>
          simp only [perform, hush, World.lock_hush]
          rw [show (session.world.lock id).hush.check = (session.world.lock id).check from rfl]
          cases (session.world.lock id).check thread required ctx.callSite with
          | none => exact session.returned_hush rfl
          | some v =>
              apply session.ofResult_hush
              rw [World.report_hush, World.hush_hush]
      | report v handler =>
          apply session.ofResult_hush
          rw [show session.hush.world = session.world.hush from rfl, World.report_hush,
            World.hush_hush]
      | abort v =>
          refine session.withWorld_hush ?_ rfl
          rw [show session.hush.world = session.world.hush from rfl, World.abort_hush,
            World.hush_hush]
      | writeUnguarded value sink =>
          simp only [perform, hush, World.writeUnguarded_hush]
          obtain ⟨outcome, written, next⟩ := session.world.writeUnguarded ctx value (.ofSink sink)
          cases outcome with
          | error panic => exact session.panicked_hush panic next.hush_hush
          | ok receipt => exact session.withWorld_hush next.hush_hush rfl
      | writeBetween p value lead tail sink =>
          simp only [perform, hush, World.writeBetween, World.write_hush]
          obtain ⟨outcome, written, next⟩ :=
            session.world.write ctx p value ((Writer.ofSink sink).put (Text.bytes lead))
          cases outcome with
          | error panic => exact session.panicked_hush panic next.hush_hush
          | ok receipt => exact session.withWorld_hush next.hush_hush rfl
      | render p value =>
          simp only [perform, hush, World.render, World.writeAny_hush]
          obtain ⟨outcome, written, next⟩ :=
            session.world.writeAny ctx p value (.ofSink .unlimited)
          cases outcome with
          | error panic => exact session.panicked_hush panic next.hush_hush
          | ok receipt => exact session.withWorld_hush next.hush_hush rfl
      | format p value verb lead tail =>
          simp only [perform, hush, World.format, World.writeAny_hush]
          obtain ⟨outcome, written, next⟩ :=
            session.world.writeAny ctx p value ((Writer.ofSink .unlimited).put (Text.bytes lead))
          cases outcome <;> exact session.withWorld_hush next.hush_hush rfl
      | setHandler | setResponse => exact session.setHook_hush _
      | restore index =>
          simp only [perform, show session.hush.restores = session.restores from rfl]
          cases session.restores[index]? with
          | none => exact session.returned_hush rfl
          | some token =>
              refine session.withWorld_hush ?_ rfl
              exact congrArg (fun quiet : World =>
                { quiet with hooks := session.world.hooks.restore token }) session.world.hush_hush
      | setLogger logger =>
          refine session.withWorld_hush ?_ rfl
          exact congrArg (fun quiet : World =>
            { quiet with hooks := session.world.hooks.setLogger logger }) session.world.hush_hush
      | warn key text =>
          simp only [perform, World.warn,
            show session.hush.world.warned = session.world.warned from rfl]
          split
          · exact session.withWorld_hush session.world.hush_hush rfl
          · refine session.withWorld_hush ?_ rfl
            exact World.log_hush { session.world with warned := key :: session.world.warned } ..
      | forgetWarnings =>
          refine session.withWorld_hush ?_ rfl
          exact congrArg (fun quiet : World => { quiet with warned := [] }) session.world.hush_hush
      | apply settings => exact session.applied_hush rfl
      | readAndApply reader environment =>
          simp only [perform]
          cases reader environment with
          | error error => exact session.returned_hush rfl
          | ok settings => exact session.applied_hush rfl
      | self | roster | response => exact session.returned_hush rfl

theorem stepOf_cons (world : World) (t : Thread) (p : Pending) (rest : List Pending) :
    stepOf world t (p :: rest) =
      if p.call.thread = t then
        (p.call.proceed? world).map fun stepped => (stepped.1, { p with call := stepped.2 } :: rest)
      else (stepOf world t rest).map fun stepped => (stepped.1, p :: stepped.2) := by
  simp only [stepOf]
  split
  · cases p.call.proceed? world <;> rfl
  · cases stepOf world t rest <;> rfl

def quieted (stepped : World × List Pending) : World × List Pending :=
  (stepped.1.hush, stepped.2.map Pending.hush)

theorem stepOf_hush (world : World) (t : Thread) (pending : List Pending) :
    (stepOf world.hush t (pending.map Pending.hush)).map quieted =
      (stepOf world t pending).map quieted := by
  induction pending with
  | nil => rfl
  | cons p rest ih =>
      rw [List.map_cons, stepOf_cons, stepOf_cons, show p.hush.call = p.call from rfl]
      split
      · have own := congrArg (Option.map fun stepped : World × Call =>
          (stepped.1, { p.hush with call := stepped.2 } :: rest.map Pending.hush))
          (Call.proceed?_hush world p.call)
        simp only [Option.map_map] at own ⊢
        have twice (result : World × Call) :
            quieted (result.1, { p.hush with call := result.2 } :: rest.map Pending.hush) =
              (result.1.hush, { p.hush with call := result.2 } :: rest.map Pending.hush) := by
          simp only [quieted, List.map_cons, List.map_map]
          rfl
        simp only [Function.comp_def, twice]
        exact own
      · have others := congrArg (Option.map fun stepped : World × List Pending =>
          (stepped.1, p.hush :: stepped.2)) ih
        simp only [Option.map_map] at others ⊢
        exact others

theorem any_hush (kind : Call → Bool) :
    (session.pending.map Pending.hush).any (fun p => kind p.call) =
      session.pending.any fun p => kind p.call := by
  rw [List.any_map]
  rfl

theorem move?_hush {move move' : Move} (retuned : move.Retuned move') :
    (session.hush.move? move).map hush = (session.move? move').map hush := by
  have busy (t : Thread) : session.hush.isBusy t = session.isBusy t :=
    session.any_hush fun call => call.thread == t
  have seized : session.hush.world.seized = session.world.seized := session.world.seized_hush
  cases retuned with
  | @retune ctx order order' retuned =>
      simp only [move?, busy, seized]
      split
      · rfl
      · exact congrArg (fun result => some result.2) (session.perform_hush ctx retuned)
  | same =>
      cases move with
      | start ctx tag operation =>
          simp only [move?, busy]
          split
          · rfl
          · simp only [Option.map_some, hush, World.hush_hush, List.map_cons, hush_pending]
            rfl
      | step t =>
          have shape (session : Session) : session.move? (.step t) =
              (stepOf session.world t session.pending).map
                fun stepped => ⟨stepped.1, stepped.2, session.restores⟩ := by
            simp only [move?]
            cases stepOf session.world t session.pending <;> rfl
          have stepped := congrArg (Option.map fun stepped : World × List Pending =>
            (⟨stepped.1, stepped.2, session.restores⟩ : Session))
            (stepOf_hush session.world t session.pending)
          rw [shape, shape]
          simp only [Option.map_map] at stepped ⊢
          exact stepped
      | finish t =>
          have finished : session.hush.isFinished t = session.isFinished t :=
            session.any_hush fun call => call.thread == t && call.isDone
          simp only [move?, finished]
          split
          · simp only [Option.map_some, dismiss, hush, World.hush_hush, List.filter_map, List.map_map]
            rfl
          · rfl
      | command ctx command =>
          simp only [move?, busy, seized]
          split
          · rfl
          · exact congrArg (fun result => some result.2) (session.perform_hush ctx .same)
      | advance d =>
          simp only [move?, Option.map_some, hush, hush_pending]
          exact congrArg (fun quiet : World => some
            (⟨quiet.advance d, session.pending.map Pending.hush, session.restores⟩ : Session))
            session.world.hush_hush

end Session

end GuardedDump
