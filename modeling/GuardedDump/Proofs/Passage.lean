import GuardedDump.Dump.Unmoved
import GuardedDump.Proofs.TaskOrder

/-!
# Passages of a thread through a lock

The phase of a thread at a lock says how far its call has come in entering or leaving that lock.
`Passage` lists all that one step of a call can do to a lock and to the phase of its thread, and
`Call.step_passage` says that there is nothing else; invariants of locks need only these cases.
-/

namespace GuardedDump

inductive Phase where
  | outside
  | asking (access : Access)
  | waiting (access : Access)
  | granted (access : Access)
  /-- Recorded, but not counted yet; the time waited, if the gate was asked. -/
  | counting (access : Access) (waited : Option Duration)
  | leaving (access : Access) (left : Option Hold)
  | remarking (left : Option Hold)

namespace Task

def lock? : Task → Option LockId
  | enter id _ _ _ => some id
  | leave id _ _ => some id
  | _ => none

def phase : Task → Phase
  | enter _ _ _ .consult => .outside
  | enter _ access _ .ask => .asking access
  | enter _ access _ (.wait _) => .waiting access
  | enter _ access _ (.record _) => .granted access
  | enter _ access _ (.tally waited) => .counting access (some waited)
  | enter _ access _ .reentered => .counting access none
  | leave _ _ .drop => .outside
  | leave _ access (.unlatch left) => .leaving access left
  | leave _ _ (.remark left) => .remarking left
  | _ => .outside

def phaseAt (task : Task) (id : LockId) : Phase :=
  if task.lock? = some id then task.phase else .outside

theorem phase_of_fresh {task : Task} (fresh : task.isFresh = true) : task.phase = .outside := by
  unfold isFresh at fresh
  split at fresh <;> first | rfl | cases fresh

theorem phase_of_dump {task : Task} (dump : task.isDump = true) : task.phase = .outside := by
  cases task <;> first | rfl | cases dump

theorem phaseAt_of_ne {task : Task} {id : LockId} (other : task.lock? ≠ some id) :
    task.phaseAt id = .outside :=
  if_neg other

theorem phaseAt_of_before {task later : Task} (behind : task.Before later) (id : LockId) :
    later.phaseAt id = .outside := by
  have resting : later.phase = .outside := by
    rcases behind with fresh | ⟨-, dump⟩
    · exact phase_of_fresh fresh
    · exact phase_of_dump dump
  unfold phaseAt
  split
  · exact resting
  · rfl

theorem Unfolds.phaseAt_of_ne {task : Task} {front : List Task} {id : LockId}
    (unfolds : task.Unfolds front) (other : task.lock? ≠ some id) :
    ∀ first ∈ front.head?, first.phaseAt id = .outside := by
  intro first member
  cases unfolds with
  | enter | leave =>
      cases member
      exact Task.phaseAt_of_ne other
  | survey locks =>
      rw [Option.mem_def, List.head?_map, Option.map_eq_some_iff] at member
      obtain ⟨entry, -, rfl⟩ := member
      rfl
  | visit =>
      cases member
      unfold phaseAt
      split <;> rfl
  | _ =>
      cases member
      rfl

end Task

def Call.phaseAt (call : Call) (id : LockId) : Phase :=
  match call.tasks with
  | [] => .outside
  | task :: _ => task.phaseAt id

theorem Call.phaseAt_eq_outside {call : Call} {id : LockId}
    (quiet : ∀ task ∈ call.tasks.head?, task.phaseAt id = .outside) :
    call.phaseAt id = .outside := by
  unfold phaseAt
  split
  · rfl
  case h_2 task rest tasks =>
    apply quiet
    rw [tasks]
    rfl

/-- One step of `t` at a lock: the phase before and after, and the lock afterwards. -/
inductive Passage (t : Thread) (lock : Lock) : Phase → Phase → Lock → Prop where
  | pass : Passage t lock .outside .outside lock
  | refuse : Passage t lock .outside .outside lock.cede
  | consult {access} (known : t.isKnown = true) (free : lock.table.get? t = none) :
      Passage t lock .outside (.asking access) lock.cede
  | reenter {hold} (known : t.isKnown = true) (held : lock.table.get? t = some hold)
      (mode : hold.mode ≠ .exclusive) :
      Passage t lock .outside (.counting .shared none)
        (lock.record t { hold with count := hold.count + 1 })
  | ask {access} : Passage t lock (.asking access) (.waiting access) (lock.ask t access)
  | welcome {access} (owned : lock.owns t access = true) :
      Passage t lock (.waiting access) (.granted access) lock
  | record {access waited hold} (mode : hold.mode = access.mode) (count : hold.count = 1) :
      Passage t lock (.granted access) (.counting access (some waited)) (lock.record t hold)
  | tally {access waited} : Passage t lock (.counting access (some waited)) .outside
      ((lock.tally access).tallyWait waited)
  | retally {access} : Passage t lock (.counting access none) .outside (lock.tally access)
  | lower {hold} (held : lock.table.get? t = some hold) (mode : hold.mode = .shared)
      (more : 1 < hold.count) :
      Passage t lock .outside .outside (lock.record t { hold with count := hold.count - 1 })
  | linger {hold} (held : lock.table.get? t = some hold) (mode : hold.mode = .exclusive)
      (more : 1 < hold.count) :
      Passage t lock .outside (.leaving .exclusive none)
        (lock.record t { hold with count := hold.count - 1 })
  | vacate {access hold} (held : lock.table.get? t = some hold) (mode : hold.mode = access.mode)
      (last : hold.count ≤ 1) :
      Passage t lock .outside (.leaving access (some { hold with count := hold.count - 1 }))
        (Lock.cede { lock with table := lock.table.erase t })
  | unlatch {access left} :
      Passage t lock (.leaving access left) (.remarking left) (lock.unlatch t access)
  | remark {left} : Passage t lock (.remarking left) .outside lock

namespace World

structure Touches (id : LockId) (before after : World) : Prop where
  count : after.locks.length = before.locks.length
  others : ∀ other, other ≠ id → after.lock other = before.lock other
  roster : after.roster = before.roster
  hooks : after.hooks = before.hooks
  warned : after.warned = before.warned
  failures : after.failures = before.failures
  now : after.now = before.now

theorem Touches.refl (id : LockId) (world : World) : Touches id world world :=
  ⟨rfl, fun _ _ => rfl, rfl, rfl, rfl, rfl, rfl⟩

theorem Touches.trans {id : LockId} {a b c : World} (first : Touches id a b)
    (second : Touches id b c) : Touches id a c :=
  ⟨second.count.trans first.count,
    fun other different => (second.others other different).trans (first.others other different),
    second.roster.trans first.roster, second.hooks.trans first.hooks,
    second.warned.trans first.warned, second.failures.trans first.failures,
    second.now.trans first.now⟩

theorem setLock_touches (world : World) (id : LockId) (lock : Lock) :
    Touches id world (world.setLock id lock) :=
  ⟨List.length_set .., fun _ different => world.lock_setLock_of_ne different lock,
    rfl, rfl, rfl, rfl, rfl⟩

theorem logLine_touches (world : World) (id : LockId) (t : Thread) (logger : Logger)
    (line : Option String) : Touches id world (world.logLine t logger line) := by
  cases line <;> exact ⟨rfl, fun _ _ => rfl, rfl, rfl, rfl, rfl, rfl⟩

end World

namespace Lock

variable {lock after : Lock} {t : Thread} {access : Access}

theorem consult_ok {entry : Entry} (result : lock.consult t access = (.ok entry, after)) :
    t.isKnown = true ∧
      (entry = .fresh ∧ after = lock.cede ∧ lock.table.get? t = none ∨
        entry = .reentered ∧ access = .shared ∧ ∃ hold, lock.table.get? t = some hold ∧
          hold.mode ≠ .exclusive ∧ after = lock.record t { hold with count := hold.count + 1 }) := by
  rw [consult_eq] at result
  split at result
  · cases result
  case isFalse known =>
    refine ⟨by simpa using known, ?_⟩
    split at result
    case h_1 free =>
      cases result
      exact .inl ⟨rfl, rfl, free⟩
    case h_2 hold held =>
      split at result <;> cases result
      case isFalse mode => exact .inr ⟨rfl, rfl, hold, held, mode, rfl⟩
    case h_3 => cases result

theorem consult_error {panic : Panic} (result : lock.consult t access = (.error panic, after)) :
    after = lock ∨ after = lock.cede := by
  rw [consult_eq] at result
  split at result
  · cases result
    exact .inl rfl
  · split at result
    · cases result
    · split at result <;> cases result
      exact .inr rfl
    · cases result
      exact .inr rfl

theorem drop_error {panic : Panic} (result : lock.drop t access = (.error panic, after)) :
    after = lock.cede := by
  rw [drop_eq] at result
  split at result
  · cases result
    rfl
  · split at result
    · split at result <;> cases result
    · cases result
      rfl

theorem drop_ok {left : Option Hold} (result : lock.drop t access = (.ok left, after)) :
    ∃ hold, lock.table.get? t = some hold ∧ hold.mode = access.mode ∧
      (1 < hold.count ∧ left = none ∧
          after = lock.record t { hold with count := hold.count - 1 } ∨
        hold.count ≤ 1 ∧ left = some { hold with count := hold.count - 1 } ∧
          after = cede { lock with table := lock.table.erase t }) := by
  rw [drop_eq] at result
  split at result
  · cases result
  case h_2 hold held =>
    split at result
    case isTrue mode =>
      refine ⟨hold, held, mode, ?_⟩
      split at result <;> cases result
      · exact .inl ⟨by omega, rfl, rfl⟩
      · exact .inr ⟨by omega, rfl, rfl⟩
    case isFalse => cases result

end Lock

namespace Call

variable {world world' : World} {call call' : Call} {task : Task} {rest : List Task} {id : LockId}

theorem stepEnter_touches {access : Access} {purpose : String} {point : EnterPoint}
    (step : stepEnter world call id access purpose point = some (world', call')) :
    World.Touches id world world' := by
  unfold stepEnter at step
  cases point with
  | consult =>
      simp only at step
      split at step <;> cases step <;> exact world.setLock_touches ..
  | wait since =>
      simp only at step
      split at step <;> cases step
      exact .refl id world
  | record waited =>
      cases step
      exact world.setLock_touches ..
  | ask | tally | reentered =>
      cases step
      exact (world.logLine_touches ..).trans (World.setLock_touches ..)

theorem stepLeave_touches {access : Access} {point : LeavePoint}
    (step : stepLeave world call id access point = some (world', call')) :
    World.Touches id world world' := by
  unfold stepLeave at step
  cases point with
  | drop =>
      simp only at step
      split at step
      case h_1 =>
        cases step
        exact world.setLock_touches ..
      case h_2 => split at step <;> cases step <;> exact world.setLock_touches ..
  | unlatch left =>
      cases step
      exact world.setLock_touches ..
  | remark left =>
      cases left <;> cases step
      · exact .refl id world
      · exact world.logLine_touches ..

theorem stepDemand_unmoved (world : World) (call : Call) (role : Role) (p : Precondition)
    (value : Value) : World.Unmoved world (stepDemand world call role p value).1 := by
  have unmoved := world.demand_unmoved (call.ctx.inside role.way) p
  unfold stepDemand
  split
  case h_1 panic after outcome => rwa [outcome] at unmoved
  case h_2 v after outcome => rwa [outcome] at unmoved
  case h_3 after outcome => rwa [outcome] at unmoved

theorem stepDump_world (world : World) (call : Call) (role : Role) (p : Precondition)
    (value : Value) : (stepDump world call role p value).1 = world := by
  cases value <;> rfl

theorem step_lock_of_ne (tasks : call.tasks = task :: rest) (other : task.lock? ≠ some id)
    (step : call.step world = some (world', call')) : world'.lock id = world.lock id := by
  unfold Call.step at step
  rw [tasks] at step
  cases task with
  | enter lock access purpose point =>
      exact (stepEnter_touches step).others id fun same => other (same ▸ rfl)
  | leave lock access point =>
      exact (stepLeave_touches step).others id fun same => other (same ▸ rfl)
  | close lock =>
      simp only [stepClose, Option.some.injEq] at step
      split at step <;> cases step <;> rfl
  | retire lock =>
      cases step
      rfl
  | survey selection =>
      simp only [stepSurvey, Option.some.injEq] at step
      split at step <;> cases step <;> rfl
  | visit lock selection =>
      simp only [stepVisit, Option.some.injEq] at step
      split at step <;> cases step <;> rfl
  | demand role p value =>
      have unmoved := stepDemand_unmoved world { call with tasks := rest } role p value
      rw [Option.some.inj step] at unmoved
      exact unmoved.lock id
  | dump role p value =>
      have same := stepDump_world world { call with tasks := rest } role p value
      rw [Option.some.inj step] at same
      exact congrArg (World.lock · id) same

theorem stepEnter_passage {access : Access} {purpose : String} {point : EnterPoint}
    (quiet : call.phaseAt id = .outside)
    (step : stepEnter world call id access purpose point = some (world', call')) :
    ∃ target, Passage call.thread (world.lock id) (Task.enter id access purpose point).phase
        (call'.phaseAt id) target ∧
      world'.lock id = if id < world.locks.length then target else world.lock id := by
  have ahead (later : EnterPoint) :
      (call.next (.enter id access purpose later)).phaseAt id =
        (Task.enter id access purpose later).phase := if_pos rfl
  unfold stepEnter at step
  cases point with
  | consult =>
      simp only at step
      split at step
      case h_1 panic after refused =>
        cases step
        refine ⟨after, ?_, world.lock_setLock ..⟩
        rcases Lock.consult_error refused with same | same
        · rw [same]
          exact .pass
        · rw [same]
          exact .refuse
      case h_2 after fresh =>
        cases step
        obtain ⟨known, ⟨-, rfl, free⟩ | ⟨again, -⟩⟩ := Lock.consult_ok fresh
        · refine ⟨_, ?_, world.lock_setLock ..⟩
          rw [ahead]
          exact .consult known free
        · cases again
      case h_3 after again =>
        cases step
        obtain ⟨known, ⟨fresh, -⟩ | ⟨-, rfl, hold, held, mode, rfl⟩⟩ := Lock.consult_ok again
        · cases fresh
        · refine ⟨_, ?_, world.lock_setLock ..⟩
          rw [ahead]
          exact .reenter known held mode
  | ask =>
      cases step
      refine ⟨_, ?_, by rw [World.lock_setLock, World.locks_logLine, World.lock_logLine]⟩
      rw [ahead]
      exact .ask
  | wait since =>
      simp only at step
      split at step
      case isFalse => cases step
      case isTrue owned =>
        cases step
        refine ⟨_, ?_, (ite_self _).symm⟩
        rw [ahead]
        exact .welcome owned
  | record waited =>
      cases step
      refine ⟨_, ?_, world.lock_setLock ..⟩
      rw [ahead]
      exact .record rfl rfl
  | tally waited =>
      cases step
      refine ⟨_, ?_, by rw [World.lock_setLock, World.locks_logLine, World.lock_logLine]⟩
      rw [quiet]
      exact .tally
  | reentered =>
      cases step
      refine ⟨_, ?_, by rw [World.lock_setLock, World.locks_logLine, World.lock_logLine]⟩
      rw [quiet]
      exact .retally

theorem stepLeave_passage {access : Access} {point : LeavePoint}
    (quiet : call.phaseAt id = .outside)
    (step : stepLeave world call id access point = some (world', call')) :
    ∃ target, Passage call.thread (world.lock id) (Task.leave id access point).phase
        (call'.phaseAt id) target ∧
      world'.lock id = if id < world.locks.length then target else world.lock id := by
  have ahead (later : LeavePoint) :
      (call.next (.leave id access later)).phaseAt id = (Task.leave id access later).phase :=
    if_pos rfl
  unfold stepLeave at step
  cases point with
  | drop =>
      simp only at step
      split at step
      case h_1 panic after refused =>
        cases step
        cases Lock.drop_error refused
        exact ⟨_, .refuse, world.lock_setLock ..⟩
      case h_2 left after dropped =>
        obtain ⟨hold, held, mode, ⟨more, rfl, rfl⟩ | ⟨last, rfl, rfl⟩⟩ := Lock.drop_ok dropped
        · cases access with
          | shared =>
              cases step
              refine ⟨_, ?_, world.lock_setLock ..⟩
              rw [quiet]
              exact .lower held mode more
          | exclusive =>
              cases step
              refine ⟨_, ?_, world.lock_setLock ..⟩
              rw [ahead]
              exact .linger held mode more
        · cases step
          refine ⟨_, ?_, world.lock_setLock ..⟩
          rw [ahead]
          exact .vacate held mode last
  | unlatch left =>
      cases step
      refine ⟨_, ?_, world.lock_setLock ..⟩
      rw [ahead]
      exact .unlatch
  | remark left =>
      cases left with
      | none =>
          cases step
          exact ⟨_, .remark, (ite_self _).symm⟩
      | some hold =>
          cases step
          refine ⟨_, ?_, by rw [World.lock_logLine, ite_self]⟩
          rw [quiet]
          exact .remark

theorem Orderly.phaseAt_rest (orderly : call.Orderly) (tasks : call.tasks = task :: rest)
    (id : LockId) : ({ call with tasks := rest } : Call).phaseAt id = .outside := by
  apply phaseAt_eq_outside
  intro later member
  unfold Orderly at orderly
  rw [tasks, List.pairwise_cons] at orderly
  exact Task.phaseAt_of_before (orderly.1 later (List.mem_of_mem_head? member)) id

theorem step_phaseAt_of_ne (orderly : call.Orderly) (tasks : call.tasks = task :: rest)
    (other : task.lock? ≠ some id) (step : call.step world = some (world', call')) :
    call'.phaseAt id = .outside := by
  unfold Orderly at orderly
  rw [tasks, List.pairwise_cons] at orderly
  obtain ⟨behind, -⟩ := orderly
  apply phaseAt_eq_outside
  intro first member
  obtain ⟨-, less | ⟨front, unfolds, more⟩⟩ := step_tasks tasks step
  · exact Task.phaseAt_of_before (behind first (less.subset (List.mem_of_mem_head? member))) id
  · rw [more, List.head?_append, Option.mem_def, Option.or_eq_some_iff] at member
    rcases member with ahead | ⟨-, waiting⟩
    · exact unfolds.phaseAt_of_ne other first ahead
    · exact Task.phaseAt_of_before (behind first (List.mem_of_mem_head? waiting)) id

theorem step_passage (orderly : call.Orderly) (step : call.step world = some (world', call'))
    (id : LockId) :
    ∃ target, Passage call.thread (world.lock id) (call.phaseAt id) (call'.phaseAt id) target ∧
      world'.lock id = if id < world.locks.length then target else world.lock id := by
  cases tasks : call.tasks with
  | nil =>
      simp only [Call.step, tasks] at step
      cases step
  | cons task rest =>
      have quiet := orderly.phaseAt_rest tasks id
      have phase : call.phaseAt id = task.phaseAt id := by simp only [phaseAt, tasks]
      rw [phase]
      by_cases own : task.lock? = some id
      · unfold Call.step at step
        rw [tasks] at step
        unfold Task.phaseAt
        rw [if_pos own]
        cases task with
        | enter lock access purpose point =>
            cases own
            have passage := stepEnter_passage quiet step
            exact passage
        | leave lock access point =>
            cases own
            have passage := stepLeave_passage quiet step
            exact passage
        | _ => cases own
      · rw [Task.phaseAt_of_ne own, step_phaseAt_of_ne orderly tasks own step]
        exact ⟨_, .pass, by rw [step_lock_of_ne tasks own step, ite_self]⟩

end Call

end GuardedDump
