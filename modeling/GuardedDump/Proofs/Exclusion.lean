import GuardedDump.Proofs.Ownership
import Mathlib.Data.List.Nodup

/-!
# Guarded dumps exclude writers

A dump that began under a passing check of a lock goes on under the hold that the check found: only
the thread itself can give its hold back, and it does not while it writes. So from the check to the
end of the dump no other thread owns the gate to write (`Session.guarded_dump_excludes_writers`).
-/

namespace GuardedDump

theorem Passage.get?_of_ne {t u : Thread} {lock target : Lock} {before later : Phase}
    (passage : Passage t lock before later target) (different : u ≠ t) :
    target.table.get? u = lock.table.get? u := by
  cases passage with
  | reenter | record | lower | linger => exact Table.get?_insert_of_ne _ different _
  | vacate => exact Table.get?_erase_of_ne _ different
  | _ => rfl

namespace World

theorem hasHold_of_demand {world : World} {ctx : Context} {p : Precondition} {id : LockId}
    (passed : (world.demand ctx p).1 = .ok none) (checker : p.checker = .lock id) :
    (world.lock id).hasHold (p.self.getD ctx.thread) = true := by
  unfold demand at passed
  rw [checker] at passed
  simp only [violationOf, Lock.check, Lock.heldBy] at passed
  unfold Lock.hasHold
  cases record : (world.lock id).table.get? (p.self.getD ctx.thread) with
  | some hold => rfl
  | none =>
      rw [record, ite_self] at passed
      simp only at passed
      split at passed
      · cases passed
      · cases passed

end World

namespace Call

def Watches (call : Call) (q : Precondition) (id : LockId) : Prop :=
  q.checker = .lock id ∧ q.self.getD call.thread = call.thread

def Guarded (world : World) (call : Call) : Prop :=
  ∀ role q value id, .dump role q value ∈ call.tasks → call.Watches q id →
    (world.lock id).hasHold call.thread = true

variable {world world' : World} {call call' : Call} {task : Task} {rest : List Task}

theorem Guarded.of_no_dump (plain : ∀ task ∈ call.tasks, task.isDump = false) :
    call.Guarded world := by
  intro role q value id member
  have := plain _ member
  cases this

theorem Guarded.congr (guarded : call.Guarded world)
    (table : ∀ id, (world'.lock id).table.get? call.thread = (world.lock id).table.get? call.thread) :
    call.Guarded world' := by
  intro role q value id member watches
  have held := guarded role q value id member watches
  unfold Lock.hasHold at held ⊢
  rw [table]
  exact held

theorem no_dump_after_step (orderly : call.Orderly) (tasks : call.tasks = task :: rest)
    (other : task.isWrite = false) (step : call.step world = some (world', call')) :
    ∀ later ∈ call'.tasks, later.isDump = false := by
  unfold Orderly at orderly
  rw [tasks, List.pairwise_cons] at orderly
  have plain : ∀ later ∈ rest, later.isDump = false := fun later member =>
    Task.isDump_of_fresh ((orderly.1 later member).isFresh other)
  obtain ⟨-, less | ⟨front, unfolds, more⟩⟩ := step_tasks tasks step
  · exact fun later member => plain later (less.subset member)
  · intro later member
    rw [more, List.mem_append] at member
    rcases member with ahead | behind
    · exact unfolds.no_dump other later ahead
    · exact plain later behind

theorem demand_guarded {role : Role} {p : Precondition} {value : Value}
    (tasks : call.tasks = .demand role p value :: rest) (guarded : call.Guarded world)
    (step : call.step world = some (world', call')) : call'.Guarded world' := by
  have same := step_thread step
  unfold Call.step at step
  rw [tasks] at step
  have shape := stepDemand_tasks world { call with tasks := rest } role p value
  have unmoved := stepDemand_unmoved world { call with tasks := rest } role p value
  rw [Option.some.inj step] at shape unmoved
  have lock (id : LockId) : world'.lock id = world.lock id := unmoved.lock id
  intro kind q later id member watches
  rw [lock, same]
  unfold Watches at watches
  rw [same] at watches
  obtain ⟨-, less | ⟨passed, more⟩⟩ := shape
  · exact guarded kind q later id (by rw [tasks]; exact .tail _ (less.subset member)) watches
  · rw [more] at member
    rcases List.mem_cons.mp member with fresh | behind
    · cases fresh
      have held := World.hasHold_of_demand passed watches.1
      rwa [show p.self.getD (call.ctx.inside role.way).thread = call.thread from watches.2] at held
    · exact guarded kind q later id (by rw [tasks]; exact .tail _ behind) watches

theorem dump_guarded {role : Role} {p : Precondition} {value : Value}
    (tasks : call.tasks = .dump role p value :: rest) (guarded : call.Guarded world)
    (step : call.step world = some (world', call')) : call'.Guarded world' := by
  have same := step_thread step
  unfold Call.step at step
  rw [tasks] at step
  have shape := stepDump_tasks world { call with tasks := rest } role p value
  have still := stepDump_world world { call with tasks := rest } role p value
  rw [Option.some.inj step] at shape still
  simp only at still
  subst still
  -- Every dump afterwards is one from before, or what is left of the first one.
  have before (kind : Role) (q : Precondition) (later : Value)
      (member : .dump kind q later ∈ call'.tasks) :
      ∃ whole, .dump kind q whole ∈ call.tasks := by
    rw [tasks]
    obtain ⟨-, less | ⟨left, more⟩ | ⟨_, inner, _, left, more⟩⟩ := shape
    · exact ⟨later, .tail _ (less.subset member)⟩
    · rw [more] at member
      rcases List.mem_cons.mp member with first | behind
      · cases first
        exact ⟨value, .head _⟩
      · exact ⟨later, .tail _ behind⟩
    · rw [more] at member
      rcases List.mem_cons.mp member with first | behind
      · cases first
      · rcases List.mem_cons.mp behind with first | behind
        · cases first
          exact ⟨value, .head _⟩
        · exact ⟨later, .tail _ behind⟩
  intro kind q later id member watches
  unfold Watches at watches
  rw [same] at watches ⊢
  obtain ⟨whole, present⟩ := before kind q later member
  exact guarded kind q whole id present watches

theorem step_guarded (orderly : call.Orderly) (guarded : call.Guarded world)
    (step : call.step world = some (world', call')) : call'.Guarded world' := by
  cases tasks : call.tasks with
  | nil =>
      simp only [Call.step, tasks] at step
      cases step
  | cons task rest =>
      cases task with
      | demand role p value => exact demand_guarded tasks guarded step
      | dump role p value => exact dump_guarded tasks guarded step
      | _ => exact .of_no_dump (no_dump_after_step orderly tasks rfl step)

end Call

namespace Session

def Guarded (session : Session) : Prop :=
  ∀ p ∈ session.pending, p.call.Guarded session.world

theorem Sound.guarded_step {session : Session} (sound : session.Sound)
    (guarded : session.Guarded) {before later : List Pending} {p : Pending} {world : World}
    {call : Call} (parts : session.pending = before ++ p :: later)
    (action : p.call.step session.world = some (world, call)) :
    ∀ q ∈ before ++ { p with call } :: later, q.call.Guarded world := by
  have ordered : p.call.Orderly := sound.orderly p (by rw [parts]; simp)
  have others (q : Pending) (member : q ∈ before ++ later) : q.call.Guarded world := by
    have pending : q ∈ session.pending := by
      rw [parts]
      rw [List.mem_append] at member
      simp only [List.mem_append, List.mem_cons]
      exact member.imp_right .inr
    have different : q.call.thread ≠ p.call.thread := by
      have distinct := sound.distinct
      rw [parts, threads, List.map_append, List.map_cons, List.nodup_middle, List.nodup_cons,
        ← List.map_append] at distinct
      exact fun same => distinct.1 (List.mem_map.mpr ⟨q, member, same⟩)
    apply (guarded q pending).congr
    intro id
    obtain ⟨target, passage, lock⟩ := Call.step_passage ordered action id
    rw [lock]
    split
    · exact passage.get?_of_ne different
    · rfl
  intro q member
  simp only [List.mem_append, List.mem_cons] at member
  rcases member with ahead | rfl | behind
  · exact others q (by simp [ahead])
  · exact Call.step_guarded ordered (guarded p (by rw [parts]; simp)) action
  · exact others q (by simp [behind])

theorem operation_call_no_dump (operation : Operation) (ctx : Context) :
    ∀ task ∈ (operation.call ctx).tasks, task.isDump = false := by
  intro task member
  cases operation <;> cases member with
  | head => rfl
  | tail _ behind => cases behind

theorem Guarded.turn {session after : Session} (sound : session.Sound)
    (guarded : session.Guarded) (turn : Turn session after) : after.Guarded := by
  cases turn with
  | @start ctx tag since operation idle =>
      intro p member
      rcases List.mem_cons.mp member with rfl | other
      · exact .of_no_dump (operation_call_no_dump operation ctx)
      · exact guarded p other
  | step parts action => exact sound.guarded_step guarded parts action
  | finish member done => exact fun q kept => guarded q (List.mem_filter.mp kept).1
  | create =>
      intro p member
      exact (guarded p member).congr fun id => by rw [(lock_newLock ..).2.2]
  | tune tuned pending =>
      intro p member
      rw [pending] at member
      exact (guarded p member).congr fun id => by rw [tuned.table]

theorem Reachable.guarded {failures : Failures} {session : Session}
    (reachable : Reachable failures session) : session.Guarded := by
  -- A step of one thread keeps the holds of the others only in a sound session.
  have both : session.Sound ∧ session.Guarded := by
    apply reachable.invariant
    · exact ⟨initial_sound failures, fun _ member => absurd member List.not_mem_nil⟩
    · rintro session after ⟨sound, guarded⟩ turn
      exact ⟨sound.turn turn, guarded.turn sound turn⟩
  exact both.2

/-- A check of the lock `id` lets the thread `t` pass at this moment, or `t` is somewhere in a dump
that such a check let pass. -/
inductive Reading (session : Session) (t : Thread) (id : LockId) : Prop where
  | checked {ctx : Context} {q : Precondition} (caller : ctx.thread = t)
      (checker : q.checker = .lock id) (self : q.self.getD t = t)
      (passed : (session.world.demand ctx q).1 = .ok none)
  | dumping {p : Pending} {role : Role} {q : Precondition} {value : Value}
      (member : p ∈ session.pending) (caller : p.call.thread = t)
      (task : .dump role q value ∈ p.call.tasks) (watches : p.call.Watches q id)

theorem Reading.hasHold {session : Session} {t : Thread} {id : LockId}
    (guarded : session.Guarded) (reading : session.Reading t id) :
    (session.world.lock id).hasHold t = true := by
  cases reading with
  | checked caller checker self passed =>
      have held := World.hasHold_of_demand passed checker
      rwa [caller, self] at held
  | dumping member caller task watches =>
      rw [← caller]
      exact guarded _ member _ _ _ id task watches

theorem guarded_dump_excludes_writers {failures : Failures} {session : Session} {t : Thread}
    {id : LockId} (reachable : Reachable failures session) (reading : session.Reading t id) :
    (session.world.lock id).hasHold t = true ∧ ∀ u, u ≠ t →
      (session.world.lock id).owns u .exclusive = false ∧
        (session.world.lock id).hasExclusiveHold u = false := by
  have agrees := reachable.sound.agrees id
  have held := reading.hasHold reachable.guarded
  obtain ⟨hold, record⟩ := Option.isSome_iff_exists.mp held
  obtain ⟨-, access, owner, -⟩ := agrees.owns_of_record record
  refine ⟨held, ?_⟩
  intro u different
  have shut := agrees.excludes owner different
  refine ⟨shut, ?_⟩
  unfold Lock.hasExclusiveHold
  split
  · rfl
  case h_2 other found =>
    rw [beq_eq_false_iff_ne]
    intro exclusive
    have writer := (agrees.owns_exclusive_of_record found exclusive).1
    rw [shut] at writer
    cases writer

theorem crowd_excludes_writers :
    Reachable .empty crowded ∧ crowded.Reading ⟨1⟩ 0 ∧
      (crowded.world.lock 0).gate.waitingWriters = [⟨3⟩] ∧
      ∀ u, u ≠ ⟨1⟩ → (crowded.world.lock 0).owns u .exclusive = false := by
  have reading : crowded.Reading ⟨1⟩ 0 := by
    obtain ⟨dumping, waiting, granted, pending, thread, tasks, -⟩ := crowded_pending
    have member : dumping ∈ crowded.pending := by simp [pending]
    have task : .dump .result {} (.text "heap" .done) ∈ dumping.call.tasks := by simp [tasks]
    exact .dumping member thread task ⟨rfl, rfl⟩
  refine ⟨crowded_reachable, reading, by decide +kernel, ?_⟩
  intro u different
  exact ((guarded_dump_excludes_writers crowded_reachable reading).2 u different).1

end Session

end GuardedDump
