import GuardedDump.Proofs.Erasure
import GuardedDump.Proofs.Reentry

/-!
# Misuse

A call that a lock must refuse panics at its first step, and no other call at a lock ever panics. To
everybody else it is as if the refused call had not been made (`Session.misuse_panics`): its only step
is one critical section, which leaves the table as it is and gives its mutex back.
-/

namespace GuardedDump

namespace Lock

variable {lock : Lock} {t : Thread} {access : Access}

def Bars (lock : Lock) (t : Thread) : Access → Prop
  | .shared => t = .unknown ∨ ∃ hold, lock.table.get? t = some hold ∧ hold.mode = .exclusive
  | .exclusive => t = .unknown ∨ ∃ hold, lock.table.get? t = some hold

theorem consult_error_iff :
    (∃ panic, (lock.consult t access).1 = .error panic) ↔ lock.Bars t access := by
  rw [consult_eq]
  split
  case isTrue strange =>
    have unknown : t = .unknown := t.isKnown_eq_false_iff.mp (by simpa using strange)
    cases access <;> simp [Bars, unknown]
  case isFalse known =>
    have named : t ≠ .unknown := fun same => known (by simp [t.isKnown_eq_false_iff.mpr same])
    cases found : lock.table.get? t with
    | none => cases access <;> simp [Bars, named, found]
    | some hold =>
        cases access with
        | shared => by_cases mode : hold.mode = .exclusive <;> simp [Bars, named, found, mode]
        | exclusive => simp [Bars, found]

theorem drop_error_iff :
    (∃ panic, (lock.drop t access).1 = .error panic) ↔
      ∀ hold, lock.table.get? t = some hold → hold.mode ≠ access.mode := by
  rw [drop_eq]
  split
  case h_1 free => simp [free]
  case h_2 hold held =>
    split
    case isTrue mode =>
      simp only [held, Option.some.injEq, forall_eq', mode, ne_eq, not_true, iff_false]
      split <;> simp
    case isFalse mode => simp [held, mode]

theorem consult_barred (free : lock.internal = none) (barred : lock.Bars t access) :
    ∃ panic, lock.consult t access = (.error panic, lock) := by
  obtain ⟨panic, refused⟩ := consult_error_iff.mpr barred
  refine ⟨panic, Prod.ext refused ?_⟩
  rcases consult_error (Prod.ext refused rfl) with same | ceded
  · exact same
  · exact ceded.trans (cede_of_free free)

theorem drop_barred (free : lock.internal = none)
    (barred : ∀ hold, lock.table.get? t = some hold → hold.mode ≠ access.mode) :
    ∃ panic, lock.drop t access = (.error panic, lock) := by
  obtain ⟨panic, refused⟩ := drop_error_iff.mpr barred
  exact ⟨panic, Prod.ext refused ((drop_error (Prod.ext refused rfl)).trans (cede_of_free free))⟩

end Lock

def Task.Misused (world : World) (t : Thread) : Task → Prop
  | enter id access _ .consult => (world.lock id).Bars t access
  | leave id access .drop =>
    ∀ hold, (world.lock id).table.get? t = some hold → hold.mode ≠ access.mode
  | _ => False

namespace Call

variable {world world' : World} {call call' : Call} {task : Task} {rest : List Task} {id : LockId}

theorem step_misused (free : world.Unseized) (tasks : call.tasks = task :: rest)
    (misused : task.Misused world call.thread) :
    ∃ panic, call.step world = some (world, call.crash panic) := by
  unfold Call.step
  rw [tasks]
  unfold Task.Misused at misused
  split at misused
  case h_1 id access purpose =>
    obtain ⟨panic, refused⟩ := Lock.consult_barred (free id) misused
    unfold Call.thread at refused
    exact ⟨panic, by simp only [stepEnter, Call.thread, refused, World.setLock_lock]; rfl⟩
  case h_2 id access =>
    obtain ⟨panic, refused⟩ := Lock.drop_barred (free id) misused
    unfold Call.thread at refused
    exact ⟨panic, by simp only [stepLeave, Call.thread, refused, World.setLock_lock]; rfl⟩
  case h_3 => exact misused.elim

structure Proceeds (id : LockId) (call call' : Call) : Prop where
  panic : call'.panic = call.panic
  tasks : call'.tasks = call.tasks ∨ ∃ task, call'.tasks = task :: call.tasks ∧
    task.lock? = some id ∧ ∀ world t, ¬ task.Misused world t

theorem Proceeds.next {point : EnterPoint} {access : Access} {purpose : String}
    (onward : point ≠ .consult) : Proceeds id call (call.next (.enter id access purpose point)) := by
  refine ⟨rfl, .inr ⟨_, rfl, rfl, ?_⟩⟩
  intro world t misused
  cases point <;> first | exact onward rfl | exact misused

theorem stepEnter_proceeds {access : Access} {purpose : String} {point : EnterPoint}
    (proper : ¬ (Task.enter id access purpose point).Misused world call.thread)
    (step : stepEnter world call id access purpose point = some (world', call')) :
    Proceeds id call call' := by
  cases point with
  | consult =>
      have calm (panic : Panic) : ((world.lock id).consult call.thread access).1 ≠ .error panic :=
        fun refused => proper (Lock.consult_error_iff.mp ⟨panic, refused⟩)
      simp only [stepEnter] at step
      split at step
      case h_1 panic _ refused => exact absurd (congrArg Prod.fst refused) (calm panic)
      all_goals
        cases step
        exact .next (by simp)
  | wait since =>
      simp only [stepEnter] at step
      split at step <;> cases step
      exact .next (by simp)
  | ask | record =>
      cases step
      exact .next (by simp)
  | tally | reentered =>
      cases step
      exact ⟨rfl, .inl rfl⟩

theorem stepLeave_proceeds {access : Access} {point : LeavePoint}
    (proper : ¬ (Task.leave id access point).Misused world call.thread)
    (settled : (Task.leave id access point).phase ≠ .remarking none)
    (step : stepLeave world call id access point = some (world', call')) :
    Proceeds id call call' := by
  cases point with
  | drop =>
      have calm (panic : Panic) : ((world.lock id).drop call.thread access).1 ≠ .error panic :=
        fun refused => proper (Lock.drop_error_iff.mp ⟨panic, refused⟩)
      simp only [stepLeave] at step
      split at step
      case h_1 panic _ refused => exact absurd (congrArg Prod.fst refused) (calm panic)
      case h_2 =>
        split at step <;> cases step
        · exact ⟨rfl, .inl rfl⟩
        · exact ⟨rfl, .inr ⟨_, rfl, rfl, fun _ _ misused => misused⟩⟩
  | unlatch left =>
      cases step
      exact ⟨rfl, .inr ⟨_, rfl, rfl, fun _ _ misused => misused⟩⟩
  | remark left =>
      cases left with
      | none => exact absurd rfl settled
      | some hold =>
          cases step
          exact ⟨rfl, .inl rfl⟩

theorem step_proceeds (tasks : call.tasks = task :: rest) (own : task.lock? = some id)
    (proper : ¬ task.Misused world call.thread) (settled : task.phase ≠ .remarking none)
    (step : call.step world = some (world', call')) :
    Proceeds id { call with tasks := rest } call' := by
  unfold Call.step at step
  rw [tasks] at step
  cases task with
  | enter lock access purpose point =>
      cases own
      exact stepEnter_proceeds proper step
  | leave lock access point =>
      cases own
      exact stepLeave_proceeds proper settled step
  | _ => cases own

end Call

def Operation.task? : Operation → Option Task
  | enter id access purpose => some (.entering id access purpose)
  | leave id access => some (.leaving id access)
  | _ => none

theorem Operation.call_tasks {operation : Operation} {task : Task}
    (locking : operation.task? = some task) (ctx : Context) :
    (operation.call ctx).tasks = [task] ∧ (operation.call ctx).panic = none ∧
      ∃ id, task.lock? = some id := by
  cases operation <;> cases locking <;> exact ⟨rfl, rfl, _, rfl⟩

theorem Task.Misused.congr {session after : Session} {t : Thread} {task : Task}
    (holds : ∀ id, after.holdOf id t = session.holdOf id t) :
    task.Misused after.world t ↔ task.Misused session.world t := by
  unfold Session.holdOf at holds
  cases task with
  | enter id access purpose point =>
      cases point with
      | consult => cases access <;> simp only [Misused, Lock.Bars, holds]
      | _ => exact Iff.rfl
  | leave id access point =>
      cases point with
      | drop => simp only [Misused, holds]
      | _ => exact Iff.rfl
  | _ => exact Iff.rfl

namespace Session

variable {failures : Failures} {session after : Session} {move : Move} {t : Thread}

theorem Meanwhile.follow {middle : Session} {moves : List Move}
    (meanwhile : Meanwhile t session middle)
    (allowed : ∀ move ∈ moves, move.injects = false ∧ move ≠ .step t)
    (schedule : middle.follow moves = some after) : Meanwhile t session after := by
  refine follow_invariant ?_ schedule meanwhile
  intro move member before next earlier action
  exact earlier.next (allowed move member).1 (allowed move member).2 action

theorem Sound.not_remarking {call : Call} {task : Task} {rest : List Task} {id : LockId}
    (sound : session.Sound) (found : callOf session.pending t = some call)
    (tasks : call.tasks = task :: rest) (own : task.lock? = some id) :
    task.phase ≠ .remarking none := by
  intro remarking
  obtain ⟨p, member, rfl, -⟩ := callOf_eq_some found
  have fits := sound.fits member tasks id
  rw [Task.phaseAt_own own, remarking] at fits
  cases fits.of_remarking

def Composed (session : Session) (t : Thread) : Prop :=
  ∃ call, callOf session.pending t = some call ∧ call.panic = none ∧
    (call.tasks = [] ∨ ∃ task id, call.tasks = [task] ∧ task.lock? = some id ∧
      ¬ task.Misused session.world t)

theorem move?_busy {call : Call} (found : callOf session.pending t = some call)
    (unfinished : move ≠ .finish t) (action : session.move? move = some after) :
    callOf after.pending t ≠ none := by
  by_cases own : move.actor = some t
  · cases move with
    | start ctx tag operation =>
        cases own
        simp only [move?] at action
        split at action
        · cases action
        case isFalse idle =>
          rw [isBusy_iff] at idle
          cases (callOf_of_not_mem idle).symm.trans found
    | step u =>
        cases own
        simp only [move?] at action
        split at action <;> cases action
        case h_2 world pending stepped =>
          obtain ⟨_, _, -, -, later, -⟩ := stepOf_callOf stepped
          simp [later]
    | finish u =>
        cases own
        exact absurd rfl unfinished
    | command ctx command =>
        simp only [move?] at action
        split at action <;> cases action
        simp [perform_pending, found]
    | advance d => cases own
  · simp [move?_callOf own action, found]

theorem Composed.next (composed : session.Composed t) (sound : session.Sound)
    (allowed : move.injects = false) (unfinished : move ≠ .finish t)
    (action : session.move? move = some after) : after.Composed t := by
  obtain ⟨call, found, calm, tasks⟩ := composed
  have part := move?_part sound allowed action t
  cases part with
  | acts own was step later =>
      cases found.symm.trans was
      obtain ⟨-, -, -, rfl⟩ := callOf_eq_some found
      rcases tasks with none | ⟨task, id, tasks, own, proper⟩
      · simp only [Call.step, none] at step
        cases step
      · obtain ⟨panic, onward⟩ :=
          Call.step_proceeds tasks own proper (sound.not_remarking found tasks own) step
        refine ⟨_, later, panic.trans calm, ?_⟩
        refine onward.imp_right ?_
        rintro ⟨next, more, here, safe⟩
        exact ⟨next, id, more, here, safe _ _⟩
  | begins other idle => cases found.symm.trans idle
  | ends other was done gone =>
      exact absurd gone (move?_busy found unfinished action)
  | watches other later holds =>
      refine ⟨call, later.trans found, calm, tasks.imp_right ?_⟩
      rintro ⟨task, id, tasks, own, proper⟩
      exact ⟨task, id, tasks, own, mt (Task.Misused.congr holds).mp proper⟩

theorem Composed.follow {moves : List Move} (composed : session.Composed t)
    (reachable : Reachable failures session)
    (allowed : ∀ move ∈ moves, move.injects = false ∧ move ≠ .finish t)
    (schedule : session.follow moves = some after) :
    Reachable failures after ∧ after.Composed t := by
  refine follow_invariant (P := fun later => Reachable failures later ∧ later.Composed t) ?_ schedule
    ⟨reachable, composed⟩
  intro move member middle next here action
  obtain ⟨plain, unfinished⟩ := allowed move member
  exact ⟨here.1.next plain action, here.2.next here.1.sound plain unfinished action⟩

/-- The next step of the call of `t` panics, with no mutex in hand, and nothing else changes. -/
def Panics (session : Session) (t : Thread) (after : Session) : Prop :=
  session.move? (.step t) = some after ∧ after.world = session.world ∧ after.world.Unseized ∧
    after.restores = session.restores ∧ after.dismiss t = session.dismiss t ∧
    ∃ panic, ∃ p ∈ after.pending, p.call.thread = t ∧ p.outcome = .panicked panic

theorem panics_of_misused {call : Call} {task : Task} (free : session.world.Unseized)
    (found : callOf session.pending t = some call)
    (tasks : call.tasks = [task]) (misused : task.Misused session.world t) :
    ∃ after, session.Panics t after := by
  obtain ⟨-, -, -, rfl⟩ := callOf_eq_some found
  obtain ⟨panic, step⟩ := Call.step_misused free tasks misused
  obtain ⟨pending, stepped⟩ := stepOf_of_callOf free found step
  refine ⟨{ session with pending }, ?_, rfl, free, rfl, ?_, panic, ?_⟩
  · simp only [move?, stepped]
  · obtain ⟨before, p, later, call', parts, own, action, rfl⟩ := stepOf_some stepped
    have same := (Call.step_thread action).trans own
    simp [dismiss, parts, own, same]
  · obtain ⟨_, later, same, action, kept, -⟩ := stepOf_callOf stepped
    cases found.symm.trans same
    cases step.symm.trans action
    obtain ⟨p, member, crashed, thread⟩ := callOf_eq_some kept
    refine ⟨p, member, crashed ▸ thread, ?_⟩
    simp only [Pending.outcome, crashed]
    rfl

structure Strict (session : Session) : Prop where
  steps : ∀ t call task rest id, callOf session.pending t = some call →
    call.tasks = task :: rest → task.lock? = some id →
      (task.Misused session.world t → ∃ panic,
        call.step session.world = some (session.world, call.crash panic)) ∧
      (¬ task.Misused session.world t → ∀ world call',
        call.step session.world = some (world, call') → call'.panic = call.panic)
  refuses : ∀ ctx tag operation task started, operation.task? = some task →
    session.move? (.start ctx tag operation) = some started →
    task.Misused session.world ctx.thread →
      ∀ later, Meanwhile ctx.thread started later → ∃ after, later.Panics ctx.thread after
  accepts : ∀ ctx tag operation task started, operation.task? = some task →
    session.move? (.start ctx tag operation) = some started →
    ¬ task.Misused session.world ctx.thread →
      ∀ moves after, (∀ move ∈ moves, move.injects = false ∧ move ≠ .finish ctx.thread) →
        started.follow moves = some after →
          ∀ p ∈ after.pending, p.call.thread = ctx.thread → ∀ panic, p.outcome ≠ .panicked panic
  forgets : ∀ ctx tag operation task, operation.task? = some task →
    session.isBusy ctx.thread = false → task.Misused session.world ctx.thread →
      ∀ early late, (∀ move ∈ early ++ late, move.injects = false ∧ move.actor ≠ some ctx.thread) →
        session.follow (.start ctx tag operation :: early ++ .step ctx.thread :: late ++
          [.finish ctx.thread]) = session.follow (early ++ late)
  nameless : ∀ ctx id access, ∃ panic,
    session.perform ctx (.enterUnknown id access) = (.panicked panic, session)
  free : session.world.Unseized

theorem Composed.outcome (composed : session.Composed t) (sound : session.Sound) {p : Pending}
    (member : p ∈ session.pending) (own : p.call.thread = t) (panic : Panic) :
    p.outcome ≠ .panicked panic := by
  obtain ⟨call, found, calm, -⟩ := composed
  subst own
  cases (callOf_of_mem sound.distinct member).symm.trans found
  unfold Pending.outcome
  split
  · simp [calm]
  · simp

theorem started_callOf {ctx : Context} {tag : Nat} {operation : Operation}
    (action : session.move? (.start ctx tag operation) = some after) :
    callOf after.pending ctx.thread = some (operation.call ctx) ∧
      after.dismiss ctx.thread = session ∧
      ∀ id, after.holdOf id ctx.thread = session.holdOf id ctx.thread := by
  have caller := operation_call_thread operation ctx
  simp only [move?] at action
  split at action
  · cases action
  case isFalse idle =>
    cases action
    rw [isBusy_iff] at idle
    refine ⟨callOf_cons_self caller, ?_, fun _ => rfl⟩
    have others : session.pending.filter (fun p => p.call.thread != ctx.thread) = session.pending := by
      rw [List.filter_eq_self]
      intro p member
      have apart : p.call.thread ≠ ctx.thread := fun same =>
        idle (List.mem_map.mpr ⟨p, member, same⟩)
      simpa using apart
    simp [dismiss, caller, others]

theorem refuses_of_misused {ctx : Context} {tag : Nat} {operation : Operation} {task : Task}
    {started later : Session} (reachable : Reachable failures session)
    (locking : operation.task? = some task)
    (action : session.move? (.start ctx tag operation) = some started)
    (misused : task.Misused session.world ctx.thread)
    (meanwhile : Meanwhile ctx.thread started later) : ∃ after, later.Panics ctx.thread after := by
  obtain ⟨tasks, -, -⟩ := Operation.call_tasks locking ctx
  obtain ⟨found, -, holds⟩ := started_callOf action
  obtain ⟨reachable, same, kept⟩ :=
    meanwhile.kept (reachable.next rfl action) found (by simp [tasks])
  refine panics_of_misused reachable.sound.unseized same tasks ?_
  exact (Task.Misused.congr fun id => (kept id).trans (holds id)).mpr misused

theorem isFinished_of_callOf {call : Call} (found : callOf session.pending t = some call)
    (done : call.tasks = []) : session.isFinished t = true := by
  obtain ⟨p, member, rfl, rfl⟩ := callOf_eq_some found
  unfold isFinished
  rw [List.any_eq_true]
  exact ⟨p, member, by simp [Call.isDone, done]⟩

/-- Until the call that panicked is taken away, the others do what they would do without it. -/
theorem Panics.follow {late : List Move} (panics : session.Panics t after) (sound : after.Sound)
    (others : ∀ move ∈ late, move.actor ≠ some t) :
    session.follow (.step t :: late ++ [.finish t]) = (session.dismiss t).follow late := by
  obtain ⟨action, -, -, -, same, panic, p, member, rfl, outcome⟩ := panics
  have done : p.call.tasks = [] := by
    unfold Pending.outcome at outcome
    split at outcome
    case isTrue done => exact List.isEmpty_iff.mp done
    case isFalse => cases outcome
  have found := callOf_of_mem sound.distinct member
  rw [← same, follow_dismiss after others, List.cons_append, Session.follow, action]
  simp only [follow_append]
  cases schedule : after.follow late with
  | none => rfl
  | some last =>
      have finished := isFinished_of_callOf ((follow_callOf others schedule).trans found) done
      simp only [Option.bind_some, Option.map_some, Session.follow, move?, finished, if_true]

theorem follow_of_misused {ctx : Context} {tag : Nat} {operation : Operation} {task : Task}
    {early late : List Move} (reachable : Reachable failures session)
    (locking : operation.task? = some task) (idle : session.isBusy ctx.thread = false)
    (misused : task.Misused session.world ctx.thread)
    (others : ∀ move ∈ early ++ late, move.injects = false ∧ move.actor ≠ some ctx.thread) :
    session.follow (.start ctx tag operation :: early ++ .step ctx.thread :: late ++
      [.finish ctx.thread]) = session.follow (early ++ late) := by
  obtain ⟨started, action⟩ : ∃ started, session.move? (.start ctx tag operation) = some started := by
    simp [move?, idle]
  have before := (started_callOf action).2.1
  have apart (moves : List Move) (part : moves ⊆ early ++ late) :
      ∀ move ∈ moves, move.actor ≠ some ctx.thread := fun move member =>
    (others move (part member)).2
  have first := apart early (List.subset_append_left ..)
  rw [follow_append session early, ← before, follow_dismiss started first]
  simp only [List.cons_append, List.append_assoc, Session.follow, before, action]
  rw [follow_append started early]
  cases schedule : started.follow early with
  | none => rfl
  | some middle =>
      have allowed : ∀ move ∈ early, move.injects = false ∧ move ≠ .step ctx.thread := by
        intro move member
        refine ⟨(others move (by simp [member])).1, ?_⟩
        rintro rfl
        exact first _ member rfl
      obtain ⟨after, panics⟩ :=
        refuses_of_misused reachable locking action misused (Meanwhile.refl.follow allowed schedule)
      have reached := (reachable.next rfl action).follow (fun move member => (allowed move member).1)
        schedule
      exact panics.follow (reached.next rfl panics.1).sound (apart late (List.subset_append_right ..))

theorem misuse_panics (reachable : Reachable failures session) : session.Strict := by
  have sound := reachable.sound
  refine ⟨?_, ?_, ?_, ?_, ?_, sound.unseized⟩
  · intro t call task rest id found tasks own
    obtain ⟨-, -, -, rfl⟩ := callOf_eq_some found
    refine ⟨Call.step_misused sound.unseized tasks, ?_⟩
    intro proper world call' step
    exact (Call.step_proceeds tasks own proper (sound.not_remarking found tasks own) step).panic
  · intro ctx tag operation task started locking action misused later meanwhile
    exact refuses_of_misused reachable locking action misused meanwhile
  · intro ctx tag operation task started locking action proper moves after allowed schedule p
      member own
    obtain ⟨tasks, calm, id, here⟩ := Operation.call_tasks locking ctx
    obtain ⟨found, -, holds⟩ := started_callOf action
    -- The first task is proper by assumption, and no later one can be misuse.
    have composed : started.Composed ctx.thread :=
      ⟨_, found, calm, .inr ⟨task, id, tasks, here, mt (Task.Misused.congr holds).mp proper⟩⟩
    obtain ⟨later, calmly⟩ := composed.follow (reachable.next rfl action) allowed schedule
    exact calmly.outcome later.sound member own
  · intro ctx tag operation task locking idle misused early late others
    exact follow_of_misused reachable locking idle misused others
  · intro ctx id access
    exact ⟨_, perform_enterUnknown session ctx id access⟩

def occupation : List Move :=
  List.flatten [
    [.command (.bare 3) (.setLevel 0 3)],
    .start (.bare 1) 0 (.enter 0 .exclusive "update") :: List.replicate 5 (.step ⟨1⟩), [.finish ⟨1⟩],
    [.start (.bare 2) 1 (.enter 0 .shared "scan")]]

def occupied : Session := ((initial .empty).follow occupation).getD (initial .empty)

/-- The writer wants to read as well, and thread 2 comes between. -/
theorem occupied_misuse_panics :
    (Task.entering 0 .shared "peek").Misused occupied.world ⟨1⟩ ∧
      (∃ started after, occupied.move? (.start (.bare 1) 2 (.enter 0 .shared "peek")) = some started ∧
        started.Panics ⟨1⟩ after) ∧
      occupied.follow [.start (.bare 1) 2 (.enter 0 .shared "peek"), .step ⟨2⟩, .step ⟨1⟩, .step ⟨2⟩,
        .finish ⟨1⟩] = occupied.follow [.step ⟨2⟩, .step ⟨2⟩] ∧
      (occupied.follow [.step ⟨2⟩, .step ⟨2⟩]).isSome = true := by
  have reachable : Reachable .empty occupied :=
    Reachable.initial.follow (by decide) (rfl : (initial .empty).follow occupation = some occupied)
  have misused : (Task.entering 0 .shared "peek").Misused occupied.world ⟨1⟩ :=
    Or.inr ⟨_, rfl, rfl⟩
  have idle : occupied.isBusy (Context.bare 1).thread = false := by decide +kernel
  have strict := misuse_panics reachable
  refine ⟨misused, ?_, ?_, by decide +kernel⟩
  · obtain ⟨started, action⟩ : ∃ started,
        occupied.move? (.start (.bare 1) 2 (.enter 0 .shared "peek")) = some started := by
      simp [move?, idle]
    obtain ⟨after, panics⟩ := strict.refuses _ _ _ _ _ rfl action misused _ .refl
    exact ⟨started, after, action, panics⟩
  · exact strict.forgets (.bare 1) 2 (.enter 0 .shared "peek") _ rfl idle misused [.step ⟨2⟩]
      [.step ⟨2⟩] (by simp [Move.injects, Move.actor, Context.bare])

end Session

end GuardedDump
