import GuardedDump.Proofs.Delivery
import GuardedDump.Proofs.Passage

namespace GuardedDump

theorem Gate.release_request (gate : Gate) (t : Thread) (vacant : gate.writer = none)
    (alone : gate.waitingWriters = []) : (gate.request t .shared).release t .shared = gate := by
  obtain ⟨readers, writer, waitingReaders, waitingWriters⟩ := gate
  cases vacant
  cases alone
  cases readers <;> simp [request, release, passToWriter]

theorem Table.erase_insert {table : Table} {t : Thread} (absent : table.get? t = none)
    (hold : Hold) : (table.insert t hold).erase t = table := by
  have others : ∀ entry ∈ table.entries, entry.1 ≠ t := by
    simpa [get?] using absent
  have kept : table.entries.filter (fun entry => entry.1 != t) = table.entries := by
    rw [List.filter_eq_self]
    exact fun entry member => by simpa using others entry member
  simp [insert, erase, kept]

namespace Lock

structure Free (lock : Lock) (t : Thread) : Prop where
  absent : lock.table.get? t = none
  vacant : lock.gate.writer = none
  alone : lock.gate.waitingWriters = []
  unseized : lock.internal = none

def entered (lock : Lock) (t : Thread) (hold : Hold) (waited : Duration) : Lock :=
  (((lock.ask t .shared).record t hold).tally .shared).tallyWait waited

def quitted (lock : Lock) (t : Thread) : Lock :=
  (cede { lock with table := lock.table.erase t }).unlatch t .shared

/-- The lock as a survey by `ctx` lists it: with a hold of the caller's own, unless it has one. -/
def shown (lock : Lock) (ctx : Context) (now : Instant) : Lock :=
  if lock.hasHold ctx.thread then lock
  else lock.entered ctx.thread ⟨.shared, Call.surveyPurpose, now, ctx.origin, 1⟩ (.between now now)

def visited (lock : Lock) (waited : Duration) : Lock :=
  (lock.tally .shared).tallyWait waited

variable {lock : Lock} {t : Thread}

theorem Free.consult (free : lock.Free t) (known : t.isKnown = true) (access : Access) :
    lock.consult t access = (.ok .fresh, lock) := by
  simp [consult_eq, known, free.absent, cede_of_free free.unseized]

theorem Free.owns (free : lock.Free t) : (lock.ask t .shared).owns t .shared = true := by
  simp [Lock.owns, ask, Gate.request, free.vacant, free.alone, Gate.owns]

theorem get?_entered (lock : Lock) (t : Thread) (hold : Hold) (waited : Duration) :
    (lock.entered t hold waited).table.get? t = some hold :=
  Table.get?_insert_self ..

theorem Free.restored (free : lock.Free t) (hold : Hold) (waited : Duration) :
    (lock.entered t hold waited).quitted t = lock.visited waited := by
  have gate := lock.gate.release_request t free.vacant free.alone
  have table := Table.erase_insert free.absent hold
  have free := free.unseized
  simp only [entered, quitted, visited, unlatch, ask, record, seize, cede, tally, tallyWait, gate,
    table, free]

theorem drop_single {hold : Hold} (held : lock.table.get? t = some hold)
    (mode : hold.mode = .shared) (single : hold.count = 1) :
    lock.drop t .shared =
      (.ok (some { hold with count := 0 }), cede { lock with table := lock.table.erase t }) := by
  simp [drop_eq, held, mode, single, Access.mode]

end Lock

namespace World

def Logged (t : Thread) (before after : World) : Prop :=
  ∃ lines, after.history = before.history ++ lines ∧
    ∀ event ∈ lines, ∃ logger text, event = ⟨t, .logged logger text⟩

theorem Logged.of_eq {t : Thread} {before after : World} (same : after.history = before.history) :
    Logged t before after :=
  ⟨[], by simp [same], fun _ member => absurd member List.not_mem_nil⟩

theorem Logged.trans {t : Thread} {a b c : World} (first : Logged t a b) (second : Logged t b c) :
    Logged t a c := by
  obtain ⟨early, history, lines⟩ := first
  obtain ⟨late, history', lines'⟩ := second
  refine ⟨early ++ late, by rw [history', history, List.append_assoc], ?_⟩
  intro event member
  rcases List.mem_append.mp member with ahead | behind
  · exact lines event ahead
  · exact lines' event behind

theorem logLine_logged (world : World) (t : Thread) (logger : Logger) (line : Option String) :
    Logged t world (world.logLine t logger line) := by
  cases line with
  | none => exact .of_eq rfl
  | some text => exact ⟨_, rfl, fun event member => ⟨_, _, List.mem_singleton.mp member⟩⟩

structure Works (t : Thread) (id : LockId) (before after : World) : Prop extends
    Touches id before after where
  logged : Logged t before after

namespace Works

variable {t : Thread} {id : LockId}

theorem refl (t : Thread) (id : LockId) (world : World) : Works t id world world :=
  ⟨.refl id world, .of_eq rfl⟩

theorem trans {a b c : World} (first : Works t id a b) (second : Works t id b c) : Works t id a c :=
  ⟨first.toTouches.trans second.toTouches, first.logged.trans second.logged⟩

theorem setLock (t : Thread) (world : World) (id : LockId) (lock : Lock) :
    Works t id world (world.setLock id lock) :=
  ⟨world.setLock_touches id lock, .of_eq rfl⟩

theorem logLine (world : World) (id : LockId) (t : Thread) (logger : Logger)
    (line : Option String) : Works t id world (world.logLine t logger line) :=
  ⟨world.logLine_touches id t logger line, world.logLine_logged t logger line⟩

end Works

end World

def Task.check? : Task → Option (Role × Precondition)
  | demand role p _ => some (role, p)
  | _ => none

namespace Call

open World

structure Moves (id : LockId) (target : Lock) (world : World) (call : Call) (next : World)
    (after : Call) : Prop where
  step : call.step world = some (next, after)
  works : Works call.thread id world next
  lock : id < world.locks.length → next.lock id = target

theorem Moves.of_setLock {id : LockId} {target : Lock} {world : World} {call after : Call}
    (step : call.step world = some (world.setLock id target, after)) :
    Moves id target world call (world.setLock id target) after :=
  ⟨step, .setLock .., world.lock_setLock_self id target⟩

theorem Moves.of_logLine {id : LockId} {world : World} {call after : Call} {logger : Logger}
    {line : Option String}
    (step : call.step world = some (world.logLine call.thread logger line, after)) :
    Moves id (world.lock id) world call (world.logLine call.thread logger line) after :=
  ⟨step, .logLine .., fun _ => world.lock_logLine ..⟩

theorem Moves.of_both {id : LockId} {target : Lock} {world : World} {call after : Call}
    {logger : Logger} {line : Option String}
    (step : call.step world =
      some ((world.logLine call.thread logger line).setLock id target, after)) :
    Moves id target world call ((world.logLine call.thread logger line).setLock id target) after := by
  refine ⟨step, (Works.logLine ..).trans (.setLock ..), ?_⟩
  intro present
  exact lock_setLock_self _ id target (by rwa [locks_logLine])

def Passes (world : World) (call : Call) : Prop :=
  ∀ role p, call.tasks.head?.bind Task.check? = some (role, p) →
    world.demand (call.ctx.inside role.way) p = (.ok none, world)

theorem passes_next {world : World} {call : Call} {task : Task} (plain : task.check? = none) :
    (call.next task).Passes world := by
  intro role p found
  cases plain.symm.trans found

def Attends (t : Thread) (id : LockId) (start world : World) (call : Call) : Prop :=
  Works t id start world ∧ call.Passes world

theorem enter_runs {world : World} (call : Call) {id : LockId} (purpose : String)
    (known : call.thread.isKnown = true) (present : id < world.locks.length)
    (free : (world.lock id).Free call.thread) :
    ∃ after, Runs (Attends call.thread id world) world
        (call.next (.entering id .shared purpose)) after call ∧
      Works call.thread id world after ∧
      after.lock id = (world.lock id).entered call.thread
        ⟨.shared, purpose, world.now, call.ctx.origin, 1⟩ (.between world.now world.now) := by
  have plain (world : World) (point : EnterPoint) :
      (call.next (.enter id .shared purpose point)).Passes world := passes_next rfl
  obtain ⟨consulted, consult⟩ : ∃ next, Moves id (world.lock id) world
      (call.next (.entering id .shared purpose)) next
      (call.next (.enter id .shared purpose .ask)) := by
    refine ⟨_, .of_setLock ?_⟩
    have fresh := free.consult known .shared
    simp only [Task.entering, Call.next, Call.step, stepEnter, Call.thread] at fresh ⊢
    simp only [fresh]
  have looked := consult.lock present
  have count := consult.works.count
  obtain ⟨asked, ask⟩ : ∃ next, Moves id ((world.lock id).ask call.thread .shared) consulted
      (call.next (.enter id .shared purpose .ask)) next
      (call.next (.enter id .shared purpose (.wait consulted.now))) := by
    rw [← looked]
    exact ⟨_, .of_both rfl⟩
  have joined := ask.lock (by rwa [count])
  have since := consult.works.trans ask.works
  have let_in : (call.next (.enter id .shared purpose (.wait consulted.now))).step asked =
      some (asked, call.next (.enter id .shared purpose
        (.record (.between consulted.now asked.now)))) := by
    have owner := free.owns
    rw [← joined] at owner
    exact if_pos owner
  obtain ⟨recorded, record⟩ : ∃ next, Moves id (((world.lock id).ask call.thread .shared).record
      call.thread ⟨.shared, purpose, asked.now, call.ctx.origin, 1⟩) asked
      (call.next (.enter id .shared purpose (.record (.between consulted.now asked.now)))) next
      (call.next (.enter id .shared purpose (.tally (.between consulted.now asked.now)))) := by
    rw [← joined]
    exact ⟨_, .of_setLock rfl⟩
  have noted := record.lock (by rwa [since.count])
  obtain ⟨tallied, tally⟩ : ∃ next, Moves id ((world.lock id).entered call.thread
      ⟨.shared, purpose, asked.now, call.ctx.origin, 1⟩ (.between consulted.now asked.now)) recorded
      (call.next (.enter id .shared purpose (.tally (.between consulted.now asked.now)))) next
      call := by
    unfold Lock.entered
    rw [← noted]
    exact ⟨_, .of_both rfl⟩
  have later := since.trans record.works
  have counted := tally.lock (by rwa [later.count])
  rw [since.now, consult.works.now] at counted
  refine ⟨tallied, ?_, later.trans tally.works, counted⟩
  exact .step ⟨.refl .., plain _ _⟩ consult.step <|
    .step ⟨consult.works, plain _ _⟩ ask.step <| .step ⟨since, plain _ _⟩ let_in <|
    .step ⟨since, plain _ _⟩ record.step <| .step ⟨later, plain _ _⟩ tally.step .stop

theorem leave_runs {world : World} (call : Call) {id : LockId} {hold : Hold}
    (present : id < world.locks.length)
    (held : (world.lock id).table.get? call.thread = some hold) (mode : hold.mode = .shared)
    (single : hold.count = 1) :
    ∃ after, Runs (Attends call.thread id world) world (call.next (.leaving id .shared)) after call ∧
      Works call.thread id world after ∧ after.lock id = (world.lock id).quitted call.thread := by
  have plain (world : World) (point : LeavePoint) :
      (call.next (.leave id .shared point)).Passes world := passes_next rfl
  obtain ⟨dropped, drop⟩ : ∃ next, Moves id
      (Lock.cede { world.lock id with table := (world.lock id).table.erase call.thread }) world
      (call.next (.leaving id .shared)) next
      (call.next (.leave id .shared (.unlatch (some { hold with count := 0 })))) := by
    refine ⟨_, .of_setLock ?_⟩
    have last := Lock.drop_single held mode single
    simp only [Task.leaving, Call.next, Call.step, stepLeave, Call.thread] at last ⊢
    simp only [last]
  have gone := drop.lock present
  obtain ⟨unlatched, unlatch⟩ : ∃ next, Moves id ((world.lock id).quitted call.thread) dropped
      (call.next (.leave id .shared (.unlatch (some { hold with count := 0 })))) next
      (call.next (.leave id .shared (.remark (some { hold with count := 0 })))) := by
    unfold Lock.quitted
    rw [← gone]
    exact ⟨_, .of_setLock rfl⟩
  have out := unlatch.lock (by rwa [drop.works.count])
  have since := drop.works.trans unlatch.works
  obtain ⟨remarked, remark⟩ : ∃ next, Moves id (unlatched.lock id) unlatched
      (call.next (.leave id .shared (.remark (some { hold with count := 0 })))) next call :=
    ⟨_, .of_logLine rfl⟩
  have same := remark.lock (by rwa [since.count])
  refine ⟨remarked, ?_, since.trans remark.works, same.trans out⟩
  exact .step ⟨.refl .., plain _ _⟩ drop.step <| .step ⟨drop.works, plain _ _⟩ unlatch.step <|
    .step ⟨since, plain _ _⟩ remark.step .stop

theorem demand_held {world : World} {ctx : Context} {id : LockId}
    (known : ctx.thread.isKnown = true) (held : (world.lock id).hasHold ctx.thread = true) :
    world.demand ctx { checker := .lock id } = (.ok none, world) := by
  apply demand_of_no_objection
  obtain ⟨hold, record⟩ := Option.isSome_iff_exists.mp held
  simp [objection, Lock.check, Lock.heldBy, known, record, Mode.grants]

def inspect (role : Role) (id : LockId) (selection : Selection) : Task :=
  .demand role { checker := .lock id } (.listing id selection .done)

def listed (call : Call) (role : Role) (lines : List (List UInt8)) : Call :=
  { call with writer := (call.writer.metered lines).2 }.settle role (call.writer.metered lines).1

theorem inspect_runs {P : World → Call → Prop} {world : World} (call : Call) {id : LockId}
    (known : call.thread.isKnown = true) (held : (world.lock id).hasHold call.thread = true)
    (here : ∀ other : Call, other.Passes world → P world other) (role : Role)
    (selection : Selection) :
    Runs P world (call.next (inspect role id selection)) world
      (call.listed role ((world.lock id).payloads selection world.now)) := by
  have passed : world.demand (call.ctx.inside role.way) { checker := .lock id } =
      (.ok none, world) := demand_held known held
  have checked : (call.next (inspect role id selection)).Passes world := by
    intro role p found
    cases found
    exact passed
  have first : (call.next (inspect role id selection)).step world =
      some (world, { call with writer := call.writer.push }.next
        (.dump role { checker := .lock id } (.listing id selection .done))) := by
    simp only [inspect, Call.next, Call.step, stepDemand, passed]
  exact .step (here _ checked) first <| .step (here _ (passes_next rfl)) rfl <|
    .step (here _ (passes_next rfl)) rfl .stop

theorem settle_leaving (call : Call) (role : Role) (receipt : Receipt) (id : LockId)
    (access : Access) :
    (call.next (.leaving id access)).settle role receipt =
      (call.settle role receipt).next (.leaving id access) := by
  obtain ⟨count, failure⟩ := receipt
  cases role <;> cases failure <;> rfl

def Sees (t : Thread) (id : LockId) (start world : World) (call : Call) : Prop :=
  Attends t id start world call ∧
    ((start.lock id).hasHold t = true → world.lock id = start.lock id)

def blockOf (lock : Lock) : Role := .block ("dump " ++ lock.name)

theorem visit_runs {world : World} (call : Call) {id : LockId}
    (known : call.thread.isKnown = true) (present : id < world.locks.length)
    (ready : (world.lock id).hasHold call.thread = true ∨ (world.lock id).Free call.thread)
    (selection : Selection) :
    ∃ after, Runs (Sees call.thread id world) world (call.next (.visit id selection)) after
        (call.listed (blockOf (world.lock id))
          (((world.lock id).shown call.ctx world.now).payloads selection world.now)) ∧
      Works call.thread id world after ∧
      after.lock id = if (world.lock id).hasHold call.thread then world.lock id
        else (world.lock id).visited (.between world.now world.now) := by
  have here (other : Call) (passes : other.Passes world) : Sees call.thread id world world other :=
    ⟨⟨.refl .., passes⟩, fun _ => rfl⟩
  rcases ready with held | free
  · have lists := inspect_runs call known held here (blockOf (world.lock id)) selection
    have first : (call.next (.visit id selection)).step world =
        some (world, call.next (inspect (blockOf (world.lock id)) id selection)) := by
      simp only [inspect, blockOf, Call.next, Call.step, stepVisit, Call.thread] at held ⊢
      simp only [held, if_true]
    have shown : (world.lock id).shown call.ctx world.now = world.lock id := if_pos held
    rw [shown]
    exact ⟨world, .step (here _ (passes_next rfl)) first lists, .refl .., (if_pos held).symm⟩
  · have unheld : (world.lock id).hasHold call.thread = false := by
      simp only [Lock.hasHold, free.absent, Option.isSome_none]
    have sees {start : World} (since : Works call.thread id world start) (now : World)
        (other : Call) (attends : Attends call.thread id start now other) :
        Sees call.thread id world now other := by
      refine ⟨⟨since.trans attends.1, attends.2⟩, ?_⟩
      intro held
      rw [unheld] at held
      cases held
    have first : (call.next (.visit id selection)).step world =
        some (world, ((call.next (.leaving id .shared)).next
          (inspect (blockOf (world.lock id)) id selection)).next
            (.entering id .shared surveyPurpose)) := by
      simp only [inspect, blockOf, Call.next, Call.step, stepVisit, Call.thread] at unheld ⊢
      simp only [unheld, Bool.false_eq_true, if_false]
    -- In, with the hold on record while the lock is listed, and out again.
    obtain ⟨inside, enters, entering, entered⟩ := enter_runs
      ((call.next (.leaving id .shared)).next (inspect (blockOf (world.lock id)) id selection))
      surveyPurpose known present free
    have record := congrArg (fun lock => lock.table.get? call.thread) entered
    simp only [Call.next, Call.thread, Lock.get?_entered] at record
    have lists := inspect_runs (P := Sees call.thread id world)
      (call.next (.leaving id .shared)) known (Option.isSome_of_eq_some record)
      (fun other passes => sees entering _ _ ⟨.refl .., passes⟩) (blockOf (world.lock id)) selection
    have shown : (world.lock id).shown call.ctx world.now = inside.lock id := by
      rw [entered]
      simp only [Lock.shown, show call.ctx.thread = call.thread from rfl, unheld]
      rfl
    rw [entering.now, ← shown] at lists
    generalize ((world.lock id).shown call.ctx world.now).payloads selection world.now = lines at lists ⊢
    have same : (call.listed (blockOf (world.lock id)) lines).thread = call.thread :=
      congrArg Context.thread (settle_ctx ..)
    obtain ⟨after, leaves, leaving, left⟩ := leave_runs
      (call.listed (blockOf (world.lock id)) lines)
      (by rwa [entering.count]) (by rw [same]; exact record) rfl rfl
    rw [same] at leaves leaving left
    rw [listed, ← settle_leaving] at leaves
    refine ⟨after, ?_, entering.trans leaving, ?_⟩
    · exact .step (here _ (passes_next rfl)) first <| (enters.mono (sees (.refl ..))).trans <|
        lists.trans (leaves.mono (sees entering))
    · rw [left, entered, unheld]
      exact free.restored _ _

end Call

end GuardedDump
