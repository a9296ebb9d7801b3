import GuardedDump.Proofs.Enrolment
import GuardedDump.Proofs.Ledger
import GuardedDump.Proofs.Serving
import GuardedDump.Session.Settling

namespace GuardedDump

/-! ## Names of locks -/

theorem Stride.name_eq {world : World} {ctx : Context} {id : LockId} {task : Task}
    {later : Option Task} {mark : Option Mark} {target : Lock}
    (stride : Stride world ctx id task later mark target) : target.name = (world.lock id).name := by
  cases stride <;> rfl

namespace World

def names (world : World) : List String :=
  world.locks.map Lock.name

@[simp] theorem length_names (world : World) : world.names.length = world.locks.length :=
  List.length_map _

theorem getElem?_names (world : World) (id : LockId) :
    world.names[id]? = if id < world.locks.length then some (world.lock id).name else none := by
  unfold names
  rw [List.getElem?_map]
  split
  case isTrue known => simp [World.lock, known]
  case isFalse unknown => simp [unknown]

theorem names_eq {before after : World} (count : after.locks.length = before.locks.length)
    (name : ∀ id, (after.lock id).name = (before.lock id).name) : after.names = before.names := by
  apply List.ext_getElem?
  intro id
  rw [getElem?_names, getElem?_names, count, name]

end World

/-! ## Calls that close no lock -/

def Task.closes : Task → Bool
  | close _ => true
  | retire _ => true
  | _ => false

theorem Task.Unfolds.closes {task : Task} {front : List Task} (unfolds : task.Unfolds front)
    (spares : task.closes = false) : ∀ later ∈ front, later.closes = false := by
  cases unfolds with
  | close => cases spares
  | survey locks =>
      intro later member
      obtain ⟨entry, -, rfl⟩ := List.mem_map.mp member
      rfl
  | _ => simp [Task.closes, Task.entering, Task.leaving]

namespace Call

variable {world world' : World} {call call' : Call}

def Spares (call : Call) : Prop :=
  ∀ task ∈ call.tasks, task.closes = false

theorem step_name (step : call.step world = some (world', call')) (id : LockId) :
    (world'.lock id).name = (world.lock id).name := by
  cases tasks : call.tasks with
  | nil =>
      simp only [Call.step, tasks] at step
      cases step
  | cons task rest =>
      by_cases here : task.lock? = some id
      · rcases step_strides tasks here step with
          ⟨panic, same, -⟩ | ⟨onward, target, stride, -, lock⟩
        · exact Lock.view_of_cede Lock.name (fun _ => rfl) same
        · rw [lock]
          split
          · exact stride.name_eq
          · rfl
      · rw [step_lock_of_ne tasks here step]

theorem step_spares (spares : call.Spares) (step : call.step world = some (world', call')) :
    call'.Spares ∧ world'.roster = world.roster := by
  cases tasks : call.tasks with
  | nil =>
      simp only [Call.step, tasks] at step
      cases step
  | cons task rest =>
      have own : task.closes = false := spares task (by simp [tasks])
      have behind (later : Task) (member : later ∈ rest) : later.closes = false :=
        spares later (by simp [tasks, member])
      constructor
      · intro later member
        obtain ⟨-, less | ⟨front, unfolds, more⟩⟩ := step_tasks tasks step
        · exact behind later (less.subset member)
        · rw [more] at member
          exact (List.mem_append.mp member).elim (unfolds.closes own later) (behind later)
      · unfold Call.step at step
        rw [tasks] at step
        cases task with
        | enter id access purpose point => exact (stepEnter_touches step).roster
        | leave id access point => exact (stepLeave_touches step).roster
        | close | retire => cases own
        | survey selection =>
            simp only [stepSurvey, Option.some.injEq] at step
            split at step <;> cases step <;> rfl
        | visit id selection =>
            simp only [stepVisit, Option.some.injEq] at step
            split at step <;> cases step <;> rfl
        | demand role p value =>
            have unmoved := stepDemand_unmoved world { call with tasks := rest } role p value
            rw [Option.some.inj step] at unmoved
            exact unmoved.roster
        | dump role p value =>
            have same := stepDump_world world { call with tasks := rest } role p value
            rw [Option.some.inj step] at same
            exact congrArg World.roster same

theorem waits_of_gates (free : world.Unseized)
    (gates : ∀ id, (world'.lock id).gate = (world.lock id).gate)
    (waits : call.proceed? world = none) : call.proceed? world' = none := by
  rw [free.proceed?] at waits
  suffices call.step world' = none by
    rw [Call.proceed?, this, ite_self]
  unfold Call.step at waits ⊢
  split
  · rfl
  case h_2 task rest tasks =>
    rw [tasks] at waits
    cases task with
    | enter id access purpose point =>
        cases point with
        | wait since =>
            have owns (t : Thread) :
                (world'.lock id).owns t access = (world.lock id).owns t access := by
              unfold Lock.owns
              rw [gates]
            simp only [stepEnter] at waits ⊢
            split at waits
            · cases waits
            case isFalse locked => rw [owns, if_neg locked]
        | consult =>
            simp only [stepEnter] at waits
            split at waits <;> cases waits
        | ask | record | tally | reentered => cases waits
    | leave id access point =>
        cases point with
        | drop =>
            simp only [stepLeave] at waits
            split at waits
            · cases waits
            · split at waits <;> cases waits
        | unlatch => cases waits
        | remark left => cases left <;> cases waits
    | _ => cases waits

end Call

namespace Session

variable {world world' : World} {pending pending' : List Pending}

/-! ## Running until nothing moves -/

theorem stepFirst_eq_none_iff :
    stepFirst world pending = none ↔ ∀ p ∈ pending, p.call.proceed? world = none := by
  induction pending with
  | nil => simp [stepFirst]
  | cons p rest ih =>
      rw [List.forall_mem_cons, ← ih]
      simp only [stepFirst]
      cases p.call.proceed? world with
      | some result => simp
      | none =>
          simp only [true_and]
          cases stepFirst world rest <;> simp

theorem stepFirst_some (step : stepFirst world pending = some (world', pending')) :
    ∃ before p later call, pending = before ++ p :: later ∧
      p.call.step world = some (world', call) ∧ pending' = before ++ { p with call } :: later := by
  induction pending generalizing pending' with
  | nil => cases step
  | cons p rest ih =>
      unfold stepFirst at step
      split at step
      case h_1 after call own =>
        cases step
        exact ⟨[], p, rest, call, rfl, Call.step_of_proceed? own, rfl⟩
      case h_2 =>
        split at step <;> cases step
        case h_2 stepped others =>
          obtain ⟨before, q, later, call, rfl, own, rfl⟩ := ih others
          exact ⟨p :: before, q, later, call, rfl, own, rfl⟩

theorem run_next (step : stepFirst world pending = some (world', pending')) (bound : Nat) :
    run (bound + 1) world pending = run bound world' pending' := by
  simp only [run, step]

theorem run_rested (rests : stepFirst world pending = none) (bound : Nat) :
    run bound world pending = (world, pending) := by
  cases bound with
  | zero => rfl
  | succ bound => simp only [run, rests]

theorem stepFirst_cons {p : Pending} {call : Call} (free : world.Unseized)
    (own : p.call.step world = some (world', call)) (rest : List Pending) :
    stepFirst world (p :: rest) = some (world', { p with call } :: rest) := by
  simp only [stepFirst, free.proceed?, own]

structure Spared (start world : World) (pending : List Pending) : Prop where
  roster : world.roster = start.roster
  names : world.names = start.names
  spares : ∀ p ∈ pending, p.call.Spares

theorem Spared.step {start : World} (spared : Spared start world pending)
    (step : stepFirst world pending = some (world', pending')) : Spared start world' pending' := by
  obtain ⟨before, p, later, call, rfl, own, rfl⟩ := stepFirst_some step
  obtain ⟨roster, names, spares⟩ := spared
  obtain ⟨still, same⟩ := Call.step_spares (spares p (by simp)) own
  refine ⟨same.trans roster, ?_, ?_⟩
  · exact (World.names_eq (Call.step_roster own).1 (Call.step_name own)).trans names
  · intro q member
    rcases List.mem_append.mp member with front | back
    · exact spares q (List.mem_append_left _ front)
    · rcases List.mem_cons.mp back with rfl | behind
      · exact still
      · exact spares q (by simp [behind])

theorem Spared.run {start : World} (spared : Spared start world pending) (bound : Nat) :
    Spared start (Session.run bound world pending).1 (Session.run bound world pending).2 := by
  induction bound generalizing world pending with
  | zero => exact spared
  | succ bound ih =>
      unfold Session.run
      split
      · exact spared
      case h_2 step => exact ih (spared.step step)

/-! ## Serving -/

structure Errand where
  ctx : Context
  tag : Nat
  request : Request

namespace Errand

def injects (errand : Errand) : Bool :=
  match errand.request with
  | .command command => (Move.command errand.ctx command).injects
  | _ => false

def creates? (errand : Errand) : Option String :=
  match errand.request with
  | .command (.newLock name _ _) => some name
  | _ => none

def closes? (errand : Errand) : Option LockId :=
  match errand.request with
  | .operation (.close id) => some id
  | _ => none

end Errand

def serve (session : Session) (errand : Errand) : Session :=
  (session.execute errand.ctx errand.tag errand.request).2

/-- Every call waits for a gate, and none of them closes a lock. -/
structure Resting (session : Session) : Prop where
  waits : ∀ p ∈ session.pending, p.call.proceed? session.world = none
  unfinished : ∀ p ∈ session.pending, p.call.isDone = false
  spares : ∀ p ∈ session.pending, p.call.Spares

structure Undisturbed (before after : Session) : Prop where
  roster : after.world.roster = before.world.roster
  names : after.world.names = before.world.names
  resting : after.Resting

theorem initial_resting (failures : Failures) : (initial failures).Resting :=
  ⟨by simp [initial], by simp [initial], by simp [initial]⟩

theorem collect_resting (session : Session) (spared : ∀ p ∈ session.settle.pending, p.call.Spares) :
    session.settle.collect.2.Resting := by
  have waits := stepFirst_eq_none_iff.mp session.settle_rests
  have kept {p : Pending} (member : p ∈ session.settle.collect.2.pending) :
      p ∈ session.settle.pending ∧ p.call.isDone = false := by
    simpa [collect] using member
  exact ⟨fun p member => waits p (kept member).1, fun p member => (kept member).2,
    fun p member => spared p (kept member).1⟩

namespace Resting

variable {session : Session} {errand : Errand}

theorem of_gates (resting : session.Resting) (free : session.world.Unseized) {after : Session}
    (pending : after.pending = session.pending)
    (gates : ∀ id, (after.world.lock id).gate = (session.world.lock id).gate) : after.Resting := by
  obtain ⟨waits, unfinished, spares⟩ := resting
  refine ⟨?_, ?_, ?_⟩ <;> rw [pending]
  · exact fun p member => Call.waits_of_gates free gates (waits p member)
  · exact unfinished
  · exact spares

theorem start (resting : session.Resting) (tag : Nat) {ctx : Context} {operation : Operation}
    (spares : (operation.call ctx).Spares) :
    Spared session.world (session.start ctx tag operation).world
      (session.start ctx tag operation).pending := by
  unfold Session.start settle
  apply Spared.run
  refine ⟨rfl, rfl, ?_⟩
  rw [List.forall_mem_cons]
  exact ⟨spares, resting.spares⟩

theorem serve_operation (resting : session.Resting)
    (idle : session.isBusy errand.ctx.thread = false) {operation : Operation}
    (asks : errand.request = .operation operation)
    (spares : (operation.call errand.ctx).Spares) :
    Undisturbed session (session.serve errand) := by
  have served : session.serve errand =
      (session.start errand.ctx errand.tag operation).collect.2 := by
    simp only [serve, execute, idle, asks, operate, Bool.false_eq_true, if_false]
    split <;> rfl
  have spared := resting.start errand.tag spares
  rw [served]
  exact ⟨spared.roster, spared.names, collect_resting _ spared.spares⟩

theorem serve_command (resting : session.Resting) (free : session.world.Unseized)
    (idle : session.isBusy errand.ctx.thread = false) {command : Command}
    (asks : errand.request = .command command) (allowed : errand.injects = false)
    (creates : errand.creates? = none) :
    Undisturbed session (session.serve errand) := by
  have served : session.serve errand = (session.perform errand.ctx command).2 := by
    simp only [serve, execute, idle, asks, Bool.false_eq_true, if_false]
  have plain : command.isPlain = true := by
    simp only [Errand.injects, Errand.creates?, asks] at allowed creates
    cases command with
    | newLock => cases creates
    | inject => cases allowed
    | _ => rfl
  have tuned := session.perform_tuned errand.ctx plain
  rw [served]
  exact ⟨tuned.roster, World.names_eq tuned.count tuned.name,
    resting.of_gates free (session.perform_pending errand.ctx command) tuned.gate⟩

theorem serve_other (resting : session.Resting) (free : session.world.Unseized)
    (idle : session.isBusy errand.ctx.thread = false) (allowed : errand.injects = false)
    (creates : errand.creates? = none) (closes : errand.closes? = none) :
    Undisturbed session (session.serve errand) := by
  cases asks : errand.request with
  | command command => exact resting.serve_command free idle asks allowed creates
  | operation operation =>
      refine resting.serve_operation idle asks ?_
      intro task member
      cases operation with
      | close => simp [Errand.closes?, asks] at closes
      | _ =>
          rw [List.mem_singleton.mp member]
          rfl

theorem serve_newLock (resting : session.Resting) (free : session.world.Unseized)
    (idle : session.isBusy errand.ctx.thread = false) {name : String}
    (creates : errand.creates? = some name) :
    (session.serve errand).world.roster =
        session.world.roster.enroll name session.world.locks.length ∧
      (session.serve errand).world.names = session.world.names ++ [name] ∧
      (session.serve errand).Resting := by
  unfold Errand.creates? at creates
  split at creates <;> cases creates
  case h_1 timeout logger asks =>
    have served : session.serve errand =
        { session with world := (session.world.newLock name timeout logger).2 } := by
      simp only [serve, execute, idle, asks, Bool.false_eq_true, if_false]
      rfl
    rw [served]
    refine ⟨rfl, List.map_append, resting.of_gates free rfl fun id => ?_⟩
    exact (lock_newLock session.world name timeout logger id).1

/-! ## Closing -/

theorem collect_closed (resting : session.Resting) (free : session.world.Unseized) {world : World}
    (locks : world.locks = session.world.locks) {p : Pending} (done : p.call.tasks = [])
    (bound : Nat) :
    (collect { session with
      world := (Session.run bound world (p :: session.pending)).1
      pending := (Session.run bound world (p :: session.pending)).2 }).2 =
      { session with world } := by
  have ended : p.call.isDone = true := by simp only [Call.isDone, done, List.isEmpty_nil]
  have rests : stepFirst world (p :: session.pending) = none := by
    rw [stepFirst_eq_none_iff, List.forall_mem_cons]
    constructor
    · exact Call.proceed?_of_done ended world
    · intro q member
      apply Call.waits_of_gates free _ (resting.waits q member)
      intro id
      simp only [World.lock, locks]
  have left : session.pending.filter (fun q => !q.call.isDone) = session.pending := by
    rw [List.filter_eq_self]
    intro q member
    rw [resting.unfinished q member]
    rfl
  rw [run_rested rests]
  simp [collect, ended, left]

theorem serve_close (idle : session.isBusy errand.ctx.thread = false) {id : LockId}
    (closes : errand.closes? = some id) :
    ∃ p : Pending, p.call = .start errand.ctx [.close id] .unlimited ∧ ∃ bound,
      session.serve errand = (collect { session with
        world := (Session.run (bound + 2) session.world (p :: session.pending)).1
        pending := (Session.run (bound + 2) session.world (p :: session.pending)).2 }).2 := by
  unfold Errand.closes? at closes
  split at closes <;> cases closes
  case h_1 asks =>
    refine ⟨⟨errand.tag, session.world.history.length, .close id, _⟩, rfl,
      weight session.world.roster.size session.pending, ?_⟩
    rw [Nat.add_comm]
    simp only [serve, execute, idle, asks, operate, Bool.false_eq_true, if_false]
    split <;> rfl

theorem serve_close_held (resting : session.Resting) (free : session.world.Unseized)
    (idle : session.isBusy errand.ctx.thread = false) {id : LockId}
    (closes : errand.closes? = some id) (held : (session.world.lock id).table.entries ≠ []) :
    session.serve errand = { session with
      world := session.world.log errand.ctx.thread (session.world.lock id).logger
        (Call.closeWarning (session.world.lock id)) } := by
  obtain ⟨p, call, bound, served⟩ := serve_close idle closes
  have refuses : p.call.step session.world = some (session.world.log errand.ctx.thread
      (session.world.lock id).logger (Call.closeWarning (session.world.lock id)),
      { p.call with tasks := [] }) := by
    have occupied : ¬(session.world.lock id).table.entries.isEmpty = true := by simpa using held
    rw [call]
    simp only [Call.start, Call.step, Call.stepClose, if_neg occupied]
    rfl
  rw [served, run_next (stepFirst_cons free refuses _)]
  apply resting.collect_closed free
  · rfl
  · rfl

theorem serve_close_unheld (resting : session.Resting) (free : session.world.Unseized)
    (idle : session.isBusy errand.ctx.thread = false) {id : LockId}
    (closes : errand.closes? = some id) (unheld : (session.world.lock id).table.entries = []) :
    session.serve errand = { session with
      world := { session.world with
        roster := session.world.roster.strike (session.world.lock id).name id } } := by
  obtain ⟨p, call, bound, served⟩ := serve_close idle closes
  have looks : p.call.step session.world =
      some (session.world, { p.call with tasks := [.retire id] }) := by
    rw [call]
    simp only [Call.start, Call.step, Call.stepClose, unheld, List.isEmpty_nil, if_true]
    rfl
  have strikes : ({ p.call with tasks := [.retire id] } : Call).step session.world =
      some ({ session.world with
        roster := session.world.roster.strike (session.world.lock id).name id },
        { p.call with tasks := [] }) := rfl
  rw [served, run_next (stepFirst_cons free looks _), run_next (stepFirst_cons free strikes _)]
  apply resting.collect_closed free
  · rfl
  · rfl

end Resting

end Session

end GuardedDump
