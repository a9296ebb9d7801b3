import GuardedDump.Proofs.Part

/-!
# The account of a thread at a lock

A run keeps the moves that led to a session. What one thread does at one lock leaves marks in it:
the gate is asked and given back, a record is made, a call to enter or to leave comes to its end.
`Ledger` is the grammar of these marks between two calls, with the record that they add up to, and
`Session.Run.accounted` says that the marks of every run follow it, whatever the others do.
-/

namespace GuardedDump

inductive Mark where
  | requested (access : Access)
  | recorded (time : Instant)
  | entered (access : Access) (purpose origin : String)
  | released (access : Access)
  | left (access : Access)
  deriving DecidableEq

def Task.mark (world : World) (ctx : Context) : Task → Option Mark
  | enter _ access _ .ask => some (.requested access)
  | enter _ _ _ (.record _) => some (.recorded world.now)
  | enter _ access purpose (.tally _) => some (.entered access purpose ctx.origin)
  | enter _ access purpose .reentered => some (.entered access purpose ctx.origin)
  | leave id access .drop =>
    -- Only a level of a shared hold can go without the gate.
    match (world.lock id).drop ctx.thread access, access with
    | (.ok none, _), .shared => some (.left .shared)
    | _, _ => none
  | leave _ access (.unlatch _) => some (.released access)
  | leave _ access (.remark (some _)) => some (.left access)
  | _ => none

def Call.mark (world : World) (id : LockId) (call : Call) : Option Mark :=
  match call.tasks with
  | [] => none
  | task :: _ => if task.lock? = some id then task.mark world call.ctx else none

theorem Call.mark_own {call : Call} {task : Task} {rest : List Task} {id : LockId}
    (tasks : call.tasks = task :: rest) (own : task.lock? = some id) (world : World) :
    call.mark world id = task.mark world call.ctx := by
  simp only [Call.mark, tasks, own, if_true]

theorem Call.mark_other {call : Call} {task : Task} {rest : List Task} {id : LockId}
    (tasks : call.tasks = task :: rest) (other : task.lock? ≠ some id) (world : World) :
    call.mark world id = none := by
  simp only [Call.mark, tasks, other, if_false]

inductive Stride (world : World) (ctx : Context) (id : LockId) :
    Task → Option Task → Option Mark → Lock → Prop where
  | consult {access purpose} (free : (world.lock id).table.get? ctx.thread = none) :
      Stride world ctx id (.enter id access purpose .consult)
        (some (.enter id access purpose .ask)) none (world.lock id).cede
  | reenter {purpose hold} (held : (world.lock id).table.get? ctx.thread = some hold)
      (mode : hold.mode ≠ .exclusive) :
      Stride world ctx id (.enter id .shared purpose .consult)
        (some (.enter id .shared purpose .reentered)) none
        ((world.lock id).record ctx.thread { hold with count := hold.count + 1 })
  | ask {access purpose} :
      Stride world ctx id (.enter id access purpose .ask)
        (some (.enter id access purpose (.wait world.now))) (some (.requested access))
        ((world.lock id).ask ctx.thread access)
  | welcome {access purpose since} (owned : (world.lock id).owns ctx.thread access = true) :
      Stride world ctx id (.enter id access purpose (.wait since))
        (some (.enter id access purpose (.record (.between since world.now)))) none
        (world.lock id)
  | record {access purpose waited} :
      Stride world ctx id (.enter id access purpose (.record waited))
        (some (.enter id access purpose (.tally waited))) (some (.recorded world.now))
        ((world.lock id).record ctx.thread ⟨access.mode, purpose, world.now, ctx.origin, 1⟩)
  | tally {access purpose waited} :
      Stride world ctx id (.enter id access purpose (.tally waited)) none
        (some (.entered access purpose ctx.origin))
        (((world.lock id).tally access).tallyWait waited)
  | retally {access purpose} :
      Stride world ctx id (.enter id access purpose .reentered) none
        (some (.entered access purpose ctx.origin)) ((world.lock id).tally access)
  | lower {hold} (held : (world.lock id).table.get? ctx.thread = some hold)
      (mode : hold.mode = .shared) (more : 1 < hold.count) :
      Stride world ctx id (.leave id .shared .drop) none (some (.left .shared))
        ((world.lock id).record ctx.thread { hold with count := hold.count - 1 })
  | linger {hold} (held : (world.lock id).table.get? ctx.thread = some hold)
      (mode : hold.mode = .exclusive) (more : 1 < hold.count) :
      Stride world ctx id (.leave id .exclusive .drop)
        (some (.leave id .exclusive (.unlatch none))) none
        ((world.lock id).record ctx.thread { hold with count := hold.count - 1 })
  | vacate {access hold} (held : (world.lock id).table.get? ctx.thread = some hold)
      (mode : hold.mode = access.mode) (last : hold.count ≤ 1) :
      Stride world ctx id (.leave id access .drop)
        (some (.leave id access (.unlatch (some { hold with count := hold.count - 1 })))) none
        (Lock.cede { world.lock id with table := (world.lock id).table.erase ctx.thread })
  | unlatch {access left} :
      Stride world ctx id (.leave id access (.unlatch left))
        (some (.leave id access (.remark left))) (some (.released access))
        ((world.lock id).unlatch ctx.thread access)
  | remark {access left} :
      Stride world ctx id (.leave id access (.remark (some left))) none (some (.left access))
        (world.lock id)

namespace Call

variable {world world' : World} {call call' : Call} {task : Task} {rest : List Task} {id : LockId}

def resume (call : Call) : Option Task → Call
  | none => call
  | some task => call.next task

/-- What a step of `task`, the first of a call, comes to at its lock: a panic without a mark, which
leaves at most the mutex of the table different, or one of the strides. -/
def Strides (world : World) (call : Call) (id : LockId) (task : Task) (world' : World)
    (call' : Call) : Prop :=
  (∃ panic, (world'.lock id).cede = (world.lock id).cede ∧ call' = call.crash panic ∧
      task.mark world call.ctx = none ∧
      (task.phase = .outside ∨ task.phase = .remarking none)) ∨
    ∃ later target, Stride world call.ctx id task later (task.mark world call.ctx) target ∧
      call' = call.resume later ∧
      world'.lock id = if id < world.locks.length then target else world.lock id

theorem cede_setLock {lock : Lock} (same : lock = world.lock id ∨ lock = (world.lock id).cede) :
    ((world.setLock id lock).lock id).cede = (world.lock id).cede := by
  rw [World.lock_setLock]
  split
  · rcases same with rfl | rfl <;> rfl
  · rfl

theorem stepEnter_strides {access : Access} {purpose : String} {point : EnterPoint}
    (step : stepEnter world call id access purpose point = some (world', call')) :
    Strides world call id (.enter id access purpose point) world' call' := by
  unfold stepEnter at step
  cases point with
  | consult =>
      simp only at step
      split at step <;> cases step
      case h_1 panic after refused =>
        exact .inl ⟨panic, cede_setLock (Lock.consult_error refused), rfl, rfl, .inl rfl⟩
      case h_2 after fresh =>
        obtain ⟨-, ⟨-, rfl, free⟩ | ⟨again, -⟩⟩ := Lock.consult_ok fresh
        · exact .inr ⟨_, _, .consult free, rfl, world.lock_setLock ..⟩
        · cases again
      case h_3 after again =>
        obtain ⟨-, ⟨fresh, -⟩ | ⟨-, rfl, hold, held, mode, rfl⟩⟩ := Lock.consult_ok again
        · cases fresh
        · exact .inr ⟨_, _, .reenter held mode, rfl, world.lock_setLock ..⟩
  | ask =>
      cases step
      exact .inr ⟨_, _, .ask, rfl,
        by rw [World.lock_setLock, World.locks_logLine, World.lock_logLine]; rfl⟩
  | wait since =>
      simp only at step
      split at step
      case isFalse => cases step
      case isTrue owned =>
        cases step
        exact .inr ⟨_, _, .welcome owned, rfl, (ite_self _).symm⟩
  | record waited =>
      cases step
      exact .inr ⟨_, _, .record, rfl, world.lock_setLock ..⟩
  | tally waited =>
      cases step
      exact .inr ⟨_, _, .tally, rfl,
        by rw [World.lock_setLock, World.locks_logLine, World.lock_logLine]⟩
  | reentered =>
      cases step
      exact .inr ⟨_, _, .retally, rfl,
        by rw [World.lock_setLock, World.locks_logLine, World.lock_logLine]⟩

theorem stepLeave_strides {access : Access} {point : LeavePoint}
    (step : stepLeave world call id access point = some (world', call')) :
    Strides world call id (.leave id access point) world' call' := by
  unfold stepLeave at step
  cases point with
  | drop =>
      simp only at step
      split at step
      case h_1 panic after refused =>
        cases step
        refine .inl ⟨panic, cede_setLock (.inr (Lock.drop_error refused)), rfl, ?_, .inl rfl⟩
        simp only [Task.mark]
        rw [show (world.lock id).drop call.ctx.thread access = _ from refused]
      case h_2 left after dropped =>
        obtain ⟨hold, held, mode, ⟨more, rfl, rfl⟩ | ⟨last, rfl, rfl⟩⟩ := Lock.drop_ok dropped
        all_goals
          have same : (world.lock id).drop call.ctx.thread access = _ := dropped
        · cases access with
          | shared =>
              cases step
              refine .inr ⟨none, _, ?_, rfl, world.lock_setLock ..⟩
              simp only [Task.mark, same]
              exact .lower held mode more
          | exclusive =>
              cases step
              refine .inr ⟨some _, _, ?_, rfl, world.lock_setLock ..⟩
              simp only [Task.mark, same]
              exact .linger held mode more
        · cases step
          refine .inr ⟨some _, _, ?_, rfl, world.lock_setLock ..⟩
          simp only [Task.mark, same]
          exact .vacate held mode last
  | unlatch left =>
      cases step
      exact .inr ⟨_, _, .unlatch, rfl, world.lock_setLock ..⟩
  | remark left =>
      cases left with
      | none =>
          cases step
          exact .inl ⟨_, rfl, rfl, rfl, .inr rfl⟩
      | some hold =>
          cases step
          exact .inr ⟨_, _, .remark, rfl, by rw [World.lock_logLine, ite_self]⟩

theorem step_strides (tasks : call.tasks = task :: rest) (own : task.lock? = some id)
    (step : call.step world = some (world', call')) :
    Strides world { call with tasks := rest } id task world' call' := by
  unfold Call.step at step
  rw [tasks] at step
  cases task with
  | enter lock access purpose point =>
      cases own
      exact stepEnter_strides step
  | leave lock access point =>
      cases own
      exact stepLeave_strides step
  | _ => cases own

end Call

theorem Lock.get?_record (lock : Lock) (t : Thread) (hold : Hold) :
    (lock.record t hold).table.get? t = some hold :=
  Table.get?_insert_self ..

theorem Task.phaseAt_own {task : Task} {id : LockId} (own : task.lock? = some id) :
    task.phaseAt id = task.phase :=
  if_pos own

/-! ## Ledgers -/

/-- The marks of a thread that is between two calls, and the record that they add up to. -/
inductive Ledger : List Mark → Option Hold → Prop where
  | blank : Ledger [] none
  | opened {marks access time purpose origin} (earlier : Ledger marks none) :
      Ledger (marks ++ [.requested access, .recorded time, .entered access purpose origin])
        (some ⟨access.mode, purpose, time, origin, 1⟩)
  | deepened {marks hold purpose origin} (earlier : Ledger marks (some hold))
      (mode : hold.mode = .shared) :
      Ledger (marks ++ [.entered .shared purpose origin])
        (some { hold with count := hold.count + 1 })
  | lowered {marks hold} (earlier : Ledger marks (some hold)) (mode : hold.mode = .shared)
      (more : 1 < hold.count) :
      Ledger (marks ++ [.left .shared]) (some { hold with count := hold.count - 1 })
  | closed {marks hold access} (earlier : Ledger marks (some hold))
      (mode : hold.mode = access.mode) (last : hold.count = 1) :
      Ledger (marks ++ [.released access, .left access]) none

theorem Ledger.backs {marks : List Mark} {hold : Hold} (ledger : Ledger marks (some hold)) :
    ∃ access, hold.Backs access := by
  generalize record : some hold = found at ledger
  induction ledger generalizing hold with
  | blank | closed => cases record
  | @opened _ access =>
      cases record
      exact ⟨access, rfl, Int.le_refl 1, fun _ => rfl⟩
  | deepened earlier mode ih =>
      cases record
      obtain ⟨access, backs⟩ := ih rfl
      exact ⟨.shared, mode, by have := backs.positive; simp only; omega, nofun⟩
  | lowered earlier mode more ih =>
      cases record
      exact ⟨.shared, mode, by simp only; omega, nofun⟩

theorem Ledger.positive {marks : List Mark} {hold : Hold} (ledger : Ledger marks (some hold)) :
    1 ≤ hold.count := by
  obtain ⟨access, backs⟩ := ledger.backs
  exact backs.positive

theorem Ledger.shared_of_ne {marks : List Mark} {hold : Hold} (ledger : Ledger marks (some hold))
    (mode : hold.mode ≠ .exclusive) : hold.mode = .shared := by
  obtain ⟨access, backs⟩ := ledger.backs
  cases access with
  | shared => exact backs.mode
  | exclusive => exact absurd backs.mode mode

theorem Ledger.single {marks : List Mark} {hold : Hold} (ledger : Ledger marks (some hold))
    (mode : hold.mode = .exclusive) : hold.count = 1 := by
  obtain ⟨access, backs⟩ := ledger.backs
  exact backs.single (Access.mode_injective (backs.mode.symm.trans mode))

/-- The marks of a thread whose call has come to `task`, and its record. -/
inductive Interim (id : LockId) (origin : String) : Task → List Mark → Option Hold → Prop where
  | resting {task marks record} (quiet : task.phaseAt id = .outside)
      (ledger : Ledger marks record) : Interim id origin task marks record
  | asking {access purpose marks} (ledger : Ledger marks none) :
      Interim id origin (.enter id access purpose .ask) marks none
  | waiting {access purpose since marks} (ledger : Ledger marks none) :
      Interim id origin (.enter id access purpose (.wait since)) (marks ++ [.requested access]) none
  | granted {access purpose waited marks} (ledger : Ledger marks none) :
      Interim id origin (.enter id access purpose (.record waited)) (marks ++ [.requested access])
        none
  | recorded {access purpose waited marks time} (ledger : Ledger marks none) :
      Interim id origin (.enter id access purpose (.tally waited))
        (marks ++ [.requested access, .recorded time])
        (some ⟨access.mode, purpose, time, origin, 1⟩)
  | deepened {purpose marks hold} (ledger : Ledger marks (some hold))
      (mode : hold.mode = .shared) :
      Interim id origin (.enter id .shared purpose .reentered) marks
        (some { hold with count := hold.count + 1 })
  | vacated {access marks hold} (ledger : Ledger marks (some hold))
      (mode : hold.mode = access.mode) (last : hold.count = 1) :
      Interim id origin (.leave id access (.unlatch (some { hold with count := 0 }))) marks none
  | released {access marks hold} (ledger : Ledger marks (some hold))
      (mode : hold.mode = access.mode) (last : hold.count = 1) :
      Interim id origin (.leave id access (.remark (some { hold with count := 0 })))
        (marks ++ [.released access]) none

namespace Interim

variable {id : LockId} {origin : String} {task : Task} {marks : List Mark} {record : Option Hold}

theorem ledger (interim : Interim id origin task marks record)
    (quiet : task.phaseAt id = .outside) : Ledger marks record := by
  cases interim with
  | resting _ ledger => exact ledger
  | _ =>
      simp only [Task.phaseAt, Task.lock?, if_true, Task.phase] at quiet
      cases quiet

theorem stride {world : World} {ctx : Context} {later : Option Task} {mark : Option Mark}
    {target : Lock}
    (interim : Interim id ctx.origin task marks ((world.lock id).table.get? ctx.thread))
    (stride : Stride world ctx id task later mark target) :
    match later with
    | none => Ledger (marks ++ mark.toList) (target.table.get? ctx.thread)
    | some task => Interim id ctx.origin task (marks ++ mark.toList)
        (target.table.get? ctx.thread) := by
  cases stride with
  | consult free =>
      have ledger := interim.ledger (if_pos rfl)
      rw [free] at ledger
      simp only [Option.toList_none, List.append_nil, Lock.table_cede, free]
      exact .asking ledger
  | reenter held mode =>
      have ledger := interim.ledger (if_pos rfl)
      rw [held] at ledger
      have shared := ledger.shared_of_ne mode
      simp only [Option.toList_none, List.append_nil, Lock.get?_record]
      exact .deepened ledger shared
  | lower held mode more =>
      have ledger := interim.ledger (if_pos rfl)
      rw [held] at ledger
      simp only [Lock.get?_record]
      exact .lowered ledger mode more
  | linger held mode more =>
      -- An exclusive hold is never deeper than one level.
      have ledger := interim.ledger (if_pos rfl)
      rw [held] at ledger
      have single := ledger.single mode
      omega
  | vacate held mode last =>
      have ledger := interim.ledger (if_pos rfl)
      rw [held] at ledger
      have single : _ = (1 : Int) := Int.le_antisymm last ledger.positive
      simp only [Option.toList_none, List.append_nil, Lock.table_cede, Table.get?_erase_self, single]
      exact .vacated ledger mode single
  | record =>
      rw [Lock.get?_record]
      generalize (world.lock id).table.get? ctx.thread = found at interim
      cases interim with
      | resting quiet => cases (Task.phaseAt_own rfl).symm.trans quiet
      | granted ledger =>
        simp only [Option.toList_some, List.append_assoc, List.cons_append, List.nil_append]
        exact .recorded ledger
  | ask =>
      change Interim _ _ _ _ ((world.lock id).table.get? ctx.thread)
      generalize (world.lock id).table.get? ctx.thread = found at interim ⊢
      cases interim with
      | resting quiet => cases (Task.phaseAt_own rfl).symm.trans quiet
      | asking ledger => exact .waiting ledger
  | welcome owned =>
      simp only [Option.toList_none, List.append_nil]
      generalize (world.lock id).table.get? ctx.thread = found at interim ⊢
      cases interim with
      | resting quiet => cases (Task.phaseAt_own rfl).symm.trans quiet
      | waiting ledger => exact .granted ledger
  | tally =>
      change Ledger _ ((world.lock id).table.get? ctx.thread)
      generalize (world.lock id).table.get? ctx.thread = found at interim ⊢
      cases interim with
      | resting quiet => cases (Task.phaseAt_own rfl).symm.trans quiet
      | recorded ledger =>
        simp only [Option.toList_some, List.append_assoc, List.cons_append, List.nil_append]
        exact .opened ledger
  | retally =>
      change Ledger _ ((world.lock id).table.get? ctx.thread)
      generalize (world.lock id).table.get? ctx.thread = found at interim ⊢
      cases interim with
      | resting quiet => cases (Task.phaseAt_own rfl).symm.trans quiet
      | deepened ledger mode => exact .deepened ledger mode
  | unlatch =>
      change Interim _ _ _ _ ((world.lock id).table.get? ctx.thread)
      generalize (world.lock id).table.get? ctx.thread = found at interim ⊢
      cases interim with
      | resting quiet => cases (Task.phaseAt_own rfl).symm.trans quiet
      | vacated ledger mode last => exact .released ledger mode last
  | remark =>
      simp only
      generalize (world.lock id).table.get? ctx.thread = found at interim ⊢
      cases interim with
      | resting quiet => cases (Task.phaseAt_own rfl).symm.trans quiet
      | released ledger mode last =>
        simp only [Option.toList_some, List.append_assoc, List.cons_append, List.nil_append]
        exact .closed ledger mode last

theorem ledger_of_crash (interim : Interim id origin task marks record)
    (own : task.lock? = some id) (crash : task.phase = .outside ∨ task.phase = .remarking none) :
    Ledger marks record := by
  rcases crash with quiet | remark
  · exact interim.ledger ((Task.phaseAt_own own).trans quiet)
  · cases interim with
    | resting _ ledger => exact ledger
    | _ => cases remark

end Interim

theorem Stride.get?_of_blank {world : World} {ctx : Context} {id : LockId} {task : Task}
    {later : Option Task} {mark : Option Mark} {target : Lock}
    (stride : Stride world ctx id task later mark target) (gate : (world.lock id).gate = .vacant)
    (table : (world.lock id).table = .empty)
    (fits : Fits ctx.thread (task.phaseAt id) ((world.lock id).table.get? ctx.thread)
      ((world.lock id).gate.stand ctx.thread)) :
    target.table.get? ctx.thread = (world.lock id).table.get? ctx.thread := by
  have free : (world.lock id).table.get? ctx.thread = none := by
    rw [table]
    rfl
  cases stride with
  | record =>
      rw [Task.phaseAt_own rfl, gate, Gate.stand_vacant] at fits
      generalize (world.lock id).table.get? ctx.thread = found at fits
      cases fits
  | reenter held | lower held | linger held | vacate held =>
      rw [free] at held
      cases held
  | _ => rfl

namespace Call

variable {world world' : World} {call call' : Call} {id : LockId} {marks : List Mark}

def Accounted (call : Call) (id : LockId) (marks : List Mark) (record : Option Hold) : Prop :=
  match call.tasks with
  | [] => Ledger marks record
  | task :: _ => Interim id call.ctx.origin task marks record

theorem Accounted.of_quiet {record : Option Hold} (quiet : call.phaseAt id = .outside)
    (ledger : Ledger marks record) : call.Accounted id marks record := by
  unfold phaseAt at quiet
  unfold Accounted
  split
  · exact ledger
  case h_2 task rest tasks =>
    rw [tasks] at quiet
    exact .resting quiet ledger

theorem Accounted.ledger {record : Option Hold} (accounted : call.Accounted id marks record)
    (quiet : call.phaseAt id = .outside) : Ledger marks record := by
  unfold Accounted at accounted
  unfold phaseAt at quiet
  split at accounted
  · exact accounted
  case h_2 task rest tasks =>
    rw [tasks] at quiet
    exact accounted.ledger quiet

theorem Accounted.step (orderly : call.Orderly)
    (fits : Fits call.thread (call.phaseAt id) ((world.lock id).table.get? call.thread)
      ((world.lock id).gate.stand call.thread))
    (accounted : call.Accounted id marks ((world.lock id).table.get? call.thread))
    (step : call.step world = some (world', call')) :
    call'.Accounted id (marks ++ (call.mark world id).toList)
      ((world'.lock id).table.get? call.thread) := by
  cases tasks : call.tasks with
  | nil =>
      simp only [Call.step, tasks] at step
      cases step
  | cons task rest =>
      have interim : Interim id call.ctx.origin task marks
          ((world.lock id).table.get? call.thread) := by
        simpa only [Accounted, tasks] using accounted
      by_cases own : task.lock? = some id
      · rw [mark_own tasks own]
        rcases step_strides tasks own step with
          ⟨panic, same, rfl, unmarked, point⟩ | ⟨later, target, stride, rfl, lock⟩
        · have table := Lock.view_of_cede Lock.table (fun _ => rfl) same
          simp only at unmarked
          rw [unmarked, Option.toList_none, List.append_nil, table]
          exact .of_quiet rfl (interim.ledger_of_crash own point)
        · have kept := interim.stride stride
          have installed : (world'.lock id).table.get? call.thread =
              target.table.get? call.thread := by
            rw [lock]
            split
            · rfl
            case isFalse unknown =>
              have blank : world.lock id = .create "" .zero .standard := by
                simp [World.lock, unknown]
              simp only [phaseAt, tasks] at fits
              exact (stride.get?_of_blank (by rw [blank]; rfl) (by rw [blank]; rfl) fits).symm
          rw [installed]
          cases later with
          | none => exact .of_quiet (orderly.phaseAt_rest tasks id) kept
          | some next => exact kept
      · rw [mark_other tasks own, Option.toList_none, List.append_nil, step_lock_of_ne tasks own step]
        exact .of_quiet (step_phaseAt_of_ne orderly tasks own step)
          (interim.ledger (Task.phaseAt_of_ne own))

end Call

/-! ## Accounts of runs -/

namespace Session

def mark (session : Session) (t : Thread) (id : LockId) : Move → Option Mark
  | .step u =>
    if u = t then (callOf session.pending t).bind (Call.mark session.world id) else none
  | _ => none

def marks (t : Thread) (id : LockId) (past : List (Session × Move)) : List Mark :=
  past.filterMap fun moment => moment.1.mark t id moment.2

def Accounted (session : Session) (t : Thread) (id : LockId) (marks : List Mark) : Prop :=
  match callOf session.pending t with
  | none => Ledger marks (session.holdOf id t)
  | some call => call.Accounted id marks (session.holdOf id t)

variable {session after : Session} {move : Move} {t : Thread} {id : LockId}

theorem mark_of_ne (other : move ≠ .step t) : session.mark t id move = none := by
  cases move with
  | step u =>
      have different : u ≠ t := fun same => other (by rw [same])
      simp only [mark, different, if_false]
  | _ => rfl

theorem marks_snoc (t : Thread) (id : LockId) (past : List (Session × Move)) (session : Session)
    (move : Move) :
    marks t id (past ++ [(session, move)]) =
      marks t id past ++ (session.mark t id move).toList := by
  unfold marks
  rw [List.filterMap_append]
  cases found : session.mark t id move <;> simp [found]

theorem Accounted.part {marks : List Mark} (sound : session.Sound)
    (accounted : session.Accounted t id marks) (part : Part t session move after) :
    after.Accounted t id (marks ++ (session.mark t id move).toList) := by
  unfold Accounted at accounted ⊢
  cases part with
  | @acts call call' own found step later =>
      obtain ⟨p, member, rfl, rfl⟩ := callOf_eq_some found
      have fits := (sound.agrees id).each p.call.thread
      rw [phaseOf_of_mem sound.distinct member] at fits
      simp only [found] at accounted
      simp only [later, own, mark, if_true, found, Option.bind_some]
      exact Call.Accounted.step (sound.orderly p member) fits accounted step
  | @begins ctx operation other idle later holds =>
      simp only [idle] at accounted
      simp only [later, mark_of_ne other, Option.toList_none, List.append_nil, holds]
      exact .of_quiet (operation_call_phaseAt operation ctx id) accounted
  | ends other found done later holds =>
      simp only [found, Call.Accounted, done] at accounted
      simp only [later, mark_of_ne other, Option.toList_none, List.append_nil, holds]
      exact accounted
  | watches other later holds =>
      simp only [later, mark_of_ne other, Option.toList_none, List.append_nil, holds]
      exact accounted

theorem Run.accounted {failures : Failures} {past : List (Session × Move)}
    (run : Run failures past session) (t : Thread) (id : LockId) :
    session.Accounted t id (marks t id past) := by
  induction run with
  | initial =>
      have free : (Session.initial failures).holdOf id t = none := by cases id <;> rfl
      change Ledger [] ((Session.initial failures).holdOf id t)
      rw [free]
      exact .blank
  | next previous allowed action ih =>
      have sound := previous.reachable.sound
      rw [marks_snoc]
      exact ih.part sound (move?_part sound allowed action t)

theorem Run.ledger {failures : Failures} {past : List (Session × Move)}
    (run : Run failures past session) (outside : phaseOf session.pending id t = .outside) :
    Ledger (marks t id past) (session.holdOf id t) := by
  have accounted := run.accounted t id
  rw [phaseOf_eq] at outside
  unfold Accounted at accounted
  split at accounted
  · exact accounted
  case h_2 call found =>
    simp only [found] at outside
    exact accounted.ledger outside

theorem Run.ledger_or_interim {failures : Failures} {past : List (Session × Move)}
    (run : Run failures past session) (t : Thread) (id : LockId) :
    (∃ record, Ledger (marks t id past) record) ∨
      ∃ origin task record, Interim id origin task (marks t id past) record := by
  have accounted := run.accounted t id
  unfold Accounted at accounted
  split at accounted
  · exact .inl ⟨_, accounted⟩
  · unfold Call.Accounted at accounted
    split at accounted
    · exact .inl ⟨_, accounted⟩
    · exact .inr ⟨_, _, _, accounted⟩

end Session

end GuardedDump
