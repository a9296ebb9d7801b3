import GuardedDump.Proofs.Brackets

/-!
# Re-entry does not wait

At the gate of a lock each thread alternates: it asks, it gives back, always in the mode that it asked
for, once for every outermost bracket of its calls and never for an inner one. So a thread that reads
can enter again at once, whoever waits to write (`Session.reentry_never_waits`).
-/

namespace GuardedDump

inductive GateOp where
  | acquire (access : Access)
  | release (access : Access)
  deriving DecidableEq

namespace GateOp

def apply (gate : Gate) (t : Thread) : GateOp → Gate
  | acquire access => gate.request t access
  | release access => gate.release t access

def Alternate : List GateOp → Prop
  | [] => True
  | [.acquire _] => True
  | .acquire access :: .release again :: rest => access = again ∧ Alternate rest
  | _ => False

def Paired : List GateOp → Prop
  | [] => True
  | .acquire access :: .release again :: rest => access = again ∧ Paired rest
  | _ => False

theorem Paired.snoc {ops : List GateOp} (paired : Paired ops) (access : Access) :
    Paired (ops ++ [.acquire access, .release access]) := by
  fun_induction Paired ops with
  | case1 => exact ⟨rfl, trivial⟩
  | case2 first again rest ih => exact ⟨paired.1, ih paired.2⟩
  | case3 => exact paired.elim

theorem Paired.alternate {ops : List GateOp} (paired : Paired ops) : Alternate ops := by
  fun_induction Paired ops with
  | case1 => trivial
  | case2 first again rest ih => exact ⟨paired.1, ih paired.2⟩
  | case3 => exact paired.elim

theorem Paired.alternate_snoc {ops : List GateOp} (paired : Paired ops) (access : Access) :
    Alternate (ops ++ [.acquire access]) := by
  fun_induction Paired ops with
  | case1 => trivial
  | case2 first again rest ih => exact ⟨paired.1, ih paired.2⟩
  | case3 => exact paired.elim

end GateOp

def Mark.op : Mark → Option GateOp
  | requested access => some (.acquire access)
  | released access => some (.release access)
  | _ => none

def Deed.op : Deed → GateOp
  | entered access _ _ _ => .acquire access
  | left access => .release access

def Deed.outermost (level : Int) : List Deed → List Deed
  | [] => []
  | deed :: rest =>
    if level = 0 ∨ level + deed.change = 0 then deed :: outermost (level + deed.change) rest
    else outermost (level + deed.change) rest

theorem Deed.outermost_append (level : Int) (deeds more : List Deed) :
    outermost level (deeds ++ more) =
      outermost level deeds ++ outermost (level + Deed.level deeds) more := by
  induction deeds generalizing level with
  | nil => simp [outermost, Deed.level]
  | cons deed rest ih =>
      simp only [List.cons_append, outermost, ih, Deed.level, ← Int.add_assoc]
      split <;> rfl

theorem Deed.outermost_snoc {deeds : List Deed} {deed : Deed}
    (edge : level deeds = 0 ∨ level deeds + deed.change = 0) :
    outermost 0 (deeds ++ [deed]) = outermost 0 deeds ++ [deed] := by
  rw [outermost_append, Int.zero_add, outermost, if_pos edge]
  rfl

theorem Deed.outermost_snoc_inner {deeds : List Deed} {deed : Deed} (before : 0 < level deeds)
    (after : 0 < level deeds + deed.change) :
    outermost 0 (deeds ++ [deed]) = outermost 0 deeds := by
  rw [outermost_append, Int.zero_add, outermost, if_neg (by omega)]
  exact List.append_nil _

def Mark.ops (marks : List Mark) : List GateOp :=
  marks.filterMap Mark.op

theorem Mark.ops_append (marks more : List Mark) : ops (marks ++ more) = ops marks ++ ops more :=
  List.filterMap_append

namespace Ledger

variable {marks : List Mark} {record : Option Hold}

theorem paired (ledger : Ledger marks record) :
    match record with
    | none => GateOp.Paired (Mark.ops marks)
    | some hold => ∃ earlier access, GateOp.Paired earlier ∧ hold.mode = access.mode ∧
        Mark.ops marks = earlier ++ [.acquire access] := by
  induction ledger with
  | blank => trivial
  | @opened _ access _ _ _ earlier ih => exact ⟨_, access, ih, rfl, Mark.ops_append ..⟩
  | deepened earlier mode ih | lowered earlier mode more ih =>
      obtain ⟨before, access, paired, same, ops⟩ := ih
      refine ⟨before, access, paired, same, ?_⟩
      rw [Mark.ops_append, ops]
      exact List.append_nil _
  | @closed _ hold access earlier mode last ih =>
      obtain ⟨before, again, paired, same, ops⟩ := ih
      have equal : again = access := Access.mode_injective (same.symm.trans mode)
      subst equal
      rw [Mark.ops_append, ops, List.append_assoc]
      exact paired.snoc again

theorem alternate (ledger : Ledger marks record) : GateOp.Alternate (Mark.ops marks) := by
  have paired := ledger.paired
  cases record with
  | none => exact paired.alternate
  | some hold =>
      obtain ⟨earlier, access, pairs, -, ops⟩ := paired
      rw [ops]
      exact pairs.alternate_snoc access

theorem outermost (ledger : Ledger marks record) :
    Mark.ops marks = (Deed.outermost 0 (Log.ofMarks marks).deeds).map Deed.op := by
  induction ledger with
  | blank => rfl
  | opened earlier ih =>
      rw [Mark.ops_append, ih, Log.ofMarks_append]
      simp only [List.foldl_cons, List.foldl_nil, Log.note]
      rw [Deed.outermost_snoc (.inl earlier.standing.level_none), List.map_append]
      rfl
  | deepened earlier mode ih =>
      have before := earlier.standing.positive
      rw [Mark.ops_append, ih, Log.ofMarks_append]
      simp only [List.foldl_cons, List.foldl_nil, Log.note]
      rw [Deed.outermost_snoc_inner before (by simp only [Deed.change]; omega)]
      exact List.append_nil _
  | lowered earlier mode more ih =>
      have before := earlier.standing.positive
      have depth := earlier.standing.level_some
      rw [Mark.ops_append, ih, Log.ofMarks_append]
      simp only [List.foldl_cons, List.foldl_nil, Log.note]
      rw [Deed.outermost_snoc_inner before (by simp only [Deed.change]; omega)]
      exact List.append_nil _
  | closed earlier mode last ih =>
      have depth := earlier.standing.level_some
      rw [Mark.ops_append, ih, Log.ofMarks_append]
      simp only [List.foldl_cons, List.foldl_nil, Log.note]
      rw [Deed.outermost_snoc (.inr (by simp only [Deed.change]; omega)), List.map_append]
      rfl

end Ledger

namespace Interim

variable {id : LockId} {origin : String} {task : Task} {marks : List Mark} {record : Option Hold}

theorem alternate (interim : Interim id origin task marks record) :
    GateOp.Alternate (Mark.ops marks) := by
  cases interim with
  | resting _ ledger | asking ledger | deepened ledger | vacated ledger => exact ledger.alternate
  | @waiting access _ _ _ ledger | @granted access _ _ _ ledger
  | @recorded access _ _ _ _ ledger =>
      rw [Mark.ops_append]
      exact GateOp.Paired.alternate_snoc ledger.paired access
  | @released access _ hold ledger mode last =>
      obtain ⟨before, again, paired, same, ops⟩ := ledger.paired
      have equal : again = access := Access.mode_injective (same.symm.trans mode)
      subst equal
      rw [Mark.ops_append, ops, List.append_assoc]
      exact (paired.snoc again).alternate

/-- A call under way is at most one operation ahead of the deeds. -/
theorem outermost (interim : Interim id origin task marks record) :
    ∃ ahead, ahead.length ≤ 1 ∧
      Mark.ops marks = (Deed.outermost 0 (Log.ofMarks marks).deeds).map Deed.op ++ ahead := by
  cases interim with
  | resting _ ledger | asking ledger | deepened ledger | vacated ledger =>
      exact ⟨[], Nat.zero_le 1, by rw [ledger.outermost, List.append_nil]⟩
  | @waiting access _ _ _ ledger | @granted access _ _ _ ledger
  | @recorded access _ _ _ _ ledger =>
      refine ⟨[.acquire access], Nat.le_refl 1, ?_⟩
      rw [Mark.ops_append, ledger.outermost, Log.ofMarks_append]
      rfl
  | @released access _ _ ledger =>
      refine ⟨[.release access], Nat.le_refl 1, ?_⟩
      rw [Mark.ops_append, ledger.outermost, Log.ofMarks_append]
      rfl

end Interim

def Gate.undergo (gate : Gate) (t : Thread) : Option GateOp → Gate
  | none => gate
  | some op => op.apply gate t

theorem Stride.gate {world : World} {ctx : Context} {id : LockId} {task : Task}
    {later : Option Task} {mark : Option Mark} {target : Lock}
    (stride : Stride world ctx id task later mark target) :
    target.gate = (world.lock id).gate.undergo ctx.thread (mark.bind Mark.op) := by
  cases stride <;> rfl

theorem World.gate_setLock {world : World} {id : LockId} {lock : Lock}
    (same : lock.gate = (world.lock id).gate) (other : LockId) :
    ((world.setLock id lock).lock other).gate = (world.lock other).gate := by
  by_cases own : other = id
  · subst own
    rw [World.lock_setLock]
    split
    · exact same
    · rfl
  · rw [World.lock_setLock_of_ne world own]

namespace Call

variable {world world' : World} {call call' : Call} {id : LockId} {rest : List Task}
  {purpose : String}

theorem step_gate (known : id < world.locks.length)
    (step : call.step world = some (world', call')) :
    (world'.lock id).gate =
      (world.lock id).gate.undergo call.thread ((call.mark world id).bind Mark.op) := by
  cases tasks : call.tasks with
  | nil =>
      simp only [Call.step, tasks] at step
      cases step
  | cons task rest =>
      by_cases own : task.lock? = some id
      · rw [mark_own tasks own]
        rcases step_strides tasks own step with
          ⟨panic, same, rfl, unmarked, -⟩ | ⟨later, target, stride, rfl, lock⟩
        · have unmarked : task.mark world call.ctx = none := unmarked
          rw [unmarked]
          exact Lock.view_of_cede Lock.gate (fun _ => rfl) same
        · rw [lock, if_pos known]
          exact stride.gate
      · rw [mark_other tasks own, step_lock_of_ne tasks own step]
        rfl

theorem step_reenter {hold : Hold} (tasks : call.tasks = .enter id .shared purpose .consult :: rest)
    (known : call.thread.isKnown = true)
    (held : (world.lock id).table.get? call.thread = some hold) (mode : hold.mode = .shared) :
    call.step world = some (world.setLock id
      ((world.lock id).record call.thread { hold with count := hold.count + 1 }),
        { call with tasks := .enter id .shared purpose .reentered :: rest }) := by
  have consulted : (world.lock id).consult call.ctx.thread .shared = (.ok .reentered,
      (world.lock id).record call.thread { hold with count := hold.count + 1 }) := by
    simp only [Call.thread] at known held ⊢
    simp [Lock.consult_eq, known, held, mode]
  unfold Call.step
  rw [tasks]
  simp only [Call.stepEnter, Call.thread] at consulted ⊢
  simp only [consulted]
  rfl

end Call

namespace Session

def op (session : Session) (t : Thread) (id : LockId) (move : Move) : Option GateOp :=
  (session.mark t id move).bind Mark.op

def ops (t : Thread) (id : LockId) (past : List (Session × Move)) : List GateOp :=
  Mark.ops (marks t id past)

variable {failures : Failures} {past : List (Session × Move)} {session after : Session}
  {move : Move} {t : Thread} {id : LockId} {call : Call}

def gateAfter (session : Session) (id : LockId) : Move → Gate
  | .step u => (session.world.lock id).gate.undergo u (session.op u id (.step u))
  | _ => (session.world.lock id).gate

theorem move?_gate (allowed : move.injects = false) (action : session.move? move = some after)
    (known : id < session.world.locks.length) :
    (after.world.lock id).gate = session.gateAfter id move := by
  cases move with
  | start ctx tag operation =>
      simp only [move?] at action
      split at action <;> cases action
      rfl
  | step u =>
      simp only [move?] at action
      split at action
      · cases action
      case h_2 world pending stepped =>
        cases action
        obtain ⟨call, call', found, step, -, -⟩ := stepOf_callOf stepped
        obtain ⟨-, -, -, rfl⟩ := callOf_eq_some found
        simp only [gateAfter, op, mark, if_true, found, Option.bind_some]
        exact Call.step_gate known step
  | finish u =>
      simp only [move?] at action
      split at action <;> cases action
      rfl
  | command ctx command =>
      simp only [move?] at action
      split at action <;> cases action
      by_cases plain : command.isPlain = true
      · exact (session.perform_tuned ctx plain).gate id
      · cases command with
        | newLock name timeout logger =>
            exact (lock_newLock session.world name timeout logger id).1
        | inject => cases allowed
        | _ => exact absurd rfl plain
  | advance d =>
      cases action
      rfl

theorem Run.alternate (run : Run failures past session) (t : Thread) (id : LockId) :
    GateOp.Alternate (ops t id past) := by
  rcases run.ledger_or_interim t id with ⟨record, ledger⟩ | ⟨origin, task, record, interim⟩
  · exact ledger.alternate
  · exact interim.alternate

theorem Run.outermost (run : Run failures past session) (t : Thread) (id : LockId) :
    ∃ ahead, ahead.length ≤ 1 ∧
      ops t id past = (Deed.outermost 0 (deeds t id past)).map Deed.op ++ ahead := by
  rcases run.ledger_or_interim t id with ⟨record, ledger⟩ | ⟨origin, task, record, interim⟩
  · exact ⟨[], Nat.zero_le 1, ledger.outermost.trans (List.append_nil _).symm⟩
  · exact interim.outermost

/-- `after` comes from `session` while `t` stands still. -/
inductive Meanwhile (t : Thread) (session : Session) : Session → Prop where
  | refl : Meanwhile t session session
  | next {middle after : Session} {move : Move} (earlier : Meanwhile t session middle)
      (allowed : move.injects = false) (other : move ≠ .step t)
      (action : middle.move? move = some after) : Meanwhile t session after

theorem Meanwhile.kept (reachable : Reachable failures session)
    (meanwhile : Meanwhile t session after) (found : callOf session.pending t = some call)
    (busy : call.tasks ≠ []) :
    Reachable failures after ∧ callOf after.pending t = some call ∧
      ∀ id, after.holdOf id t = session.holdOf id t := by
  induction meanwhile with
  | refl => exact ⟨reachable, found, fun _ => rfl⟩
  | next earlier allowed other action ih =>
      obtain ⟨before, same, holds⟩ := ih
      refine ⟨before.next allowed action, ?_⟩
      cases move?_part before.sound allowed action t with
      | acts own => exact absurd own other
      | begins _ idle =>
          rw [same] at idle
          cases idle
      | ends _ ended done =>
          rw [same] at ended
          cases ended
          exact absurd done busy
      | watches _ later kept =>
          exact ⟨later.trans same, fun id => (kept id).trans (holds id)⟩

structure Glides (t : Thread) (session after : Session) : Prop where
  move : session.move? (.step t) = some after
  issues : ∀ id, session.op t id (.step t) = none
  gates : ∀ id, (after.world.lock id).gate = (session.world.lock id).gate

theorem stepOf_of_callOf {world world' : World} {pending : List Pending} {call' : Call}
    (free : world.Unseized) (found : callOf pending t = some call)
    (step : call.step world = some (world', call')) :
    ∃ pending', stepOf world t pending = some (world', pending') := by
  induction pending with
  | nil => cases found
  | cons p rest ih =>
      unfold stepOf
      split
      case isTrue own =>
        rw [callOf_cons_self own] at found
        cases found
        simp only [free.proceed?, step]
        exact ⟨_, rfl⟩
      case isFalse other =>
        rw [callOf_cons_of_ne other] at found
        obtain ⟨stepped, more⟩ := ih found
        simp only [more]
        exact ⟨_, rfl⟩

theorem glides_of_step {world : World} {call' : Call} (free : session.world.Unseized)
    (found : callOf session.pending t = some call)
    (step : call.step session.world = some (world, call'))
    (issues : ∀ id, (call.mark session.world id).bind Mark.op = none)
    (gates : ∀ id, (world.lock id).gate = (session.world.lock id).gate) :
    ∃ after, Glides t session after ∧ callOf after.pending t = some call' := by
  obtain ⟨pending, stepped⟩ := stepOf_of_callOf free found step
  obtain ⟨again, later, same, action, kept, -⟩ := stepOf_callOf stepped
  rw [found] at same
  cases same
  rw [step] at action
  cases action
  refine ⟨{ session with world, pending }, ⟨?_, ?_, gates⟩, kept⟩
  · simp only [move?, stepped]
  · intro id
    simp only [op, mark, if_true, found, Option.bind_some]
    exact issues id

theorem issues_of_task {world : World} {task : Task} {rest : List Task}
    (tasks : call.tasks = task :: rest) (free : (task.mark world call.ctx).bind Mark.op = none)
    (id : LockId) : (call.mark world id).bind Mark.op = none := by
  by_cases own : task.lock? = some id
  · rw [Call.mark_own tasks own]
    exact free
  · rw [Call.mark_other tasks own]
    rfl

theorem glides_reenter {hold : Hold} {purpose : String} {rest : List Task}
    (sound : session.Sound) (found : callOf session.pending t = some call)
    (tasks : call.tasks = .enter id .shared purpose .consult :: rest)
    (held : session.holdOf id t = some hold) (mode : hold.mode = .shared) :
    ∃ after, Glides t session after ∧ callOf after.pending t =
      some { call with tasks := .enter id .shared purpose .reentered :: rest } := by
  obtain ⟨-, -, -, rfl⟩ := callOf_eq_some found
  have known := ((sound.agrees id).owns_of_record held).1
  exact glides_of_step sound.unseized found (Call.step_reenter tasks known held mode)
    (issues_of_task tasks rfl) (World.gate_setLock rfl)

theorem glides_retally {access : Access} {purpose : String} {rest : List Task}
    (free : session.world.Unseized) (found : callOf session.pending t = some call)
    (tasks : call.tasks = .enter id access purpose .reentered :: rest) :
    ∃ after, Glides t session after ∧
      callOf after.pending t = some { call with tasks := rest } := by
  obtain ⟨world, step, gates⟩ : ∃ world,
      call.step session.world = some (world, { call with tasks := rest }) ∧
        ∀ id, (world.lock id).gate = (session.world.lock id).gate := by
    unfold Call.step
    rw [tasks]
    refine ⟨_, rfl, ?_⟩
    intro other
    rw [World.gate_setLock (by rw [World.lock_logLine]; rfl), World.lock_logLine]
  exact glides_of_step free found step (issues_of_task tasks rfl) gates

theorem glides_lower {hold : Hold} {rest : List Task}
    (free : session.world.Unseized) (found : callOf session.pending t = some call)
    (tasks : call.tasks = .leave id .shared .drop :: rest)
    (held : session.holdOf id t = some hold) (mode : hold.mode = .shared)
    (more : 1 < hold.count) :
    ∃ after, Glides t session after ∧
      callOf after.pending t = some { call with tasks := rest } := by
  obtain ⟨-, -, -, rfl⟩ := callOf_eq_some found
  have silent : ((Task.leave id .shared .drop).mark session.world call.ctx).bind Mark.op = none := by
    simp only [Task.mark]
    split <;> rfl
  exact glides_of_step free found (Call.step_lower tasks held mode more)
    (issues_of_task tasks silent) (World.gate_setLock rfl)

structure Disciplined (past : List (Session × Move)) (session : Session) (t : Thread)
    (id : LockId) : Prop where
  alternate : GateOp.Alternate (ops t id past)
  outermost : phaseOf session.pending id t = .outside →
    ops t id past = (Deed.outermost 0 (deeds t id past)).map Deed.op
  underway : ∃ ahead, ahead.length ≤ 1 ∧
    ops t id past = (Deed.outermost 0 (deeds t id past)).map Deed.op ++ ahead
  effect : ∀ move after, move.injects = false → session.move? move = some after →
    id < session.world.locks.length → (after.world.lock id).gate = session.gateAfter id move
  /-- Two steps lead through an inner entrance, and nobody can keep `t` from them. -/
  entering : ∀ call purpose rest hold, callOf session.pending t = some call →
    call.tasks = .enter id .shared purpose .consult :: rest →
    session.holdOf id t = some hold → hold.mode = .shared →
      ∀ first, Meanwhile t session first → ∃ second, Glides t first second ∧
        ∀ third, Meanwhile t second third → ∃ last, Glides t third last ∧
          callOf last.pending t = some { call with tasks := rest }
  leaving : ∀ call rest hold, callOf session.pending t = some call →
    call.tasks = .leave id .shared .drop :: rest →
    session.holdOf id t = some hold → hold.mode = .shared → 1 < hold.count →
      ∀ first, Meanwhile t session first → ∃ last, Glides t first last ∧
        callOf last.pending t = some { call with tasks := rest }

theorem reentry_never_waits (run : Run failures past session) (t : Thread) (id : LockId) :
    session.Disciplined past t id := by
  refine ⟨run.alternate t id, ?_, run.outermost t id, ?_, ?_, ?_⟩
  · exact fun outside => (run.ledger outside).outermost
  · exact fun move after allowed action known => move?_gate allowed action known
  · intro call purpose rest hold found tasks held mode first meanwhile
    obtain ⟨reachable, same, holds⟩ := meanwhile.kept run.reachable found (by simp [tasks])
    have record := (holds id).trans held
    obtain ⟨second, glides, later⟩ := glides_reenter reachable.sound same tasks record mode
    refine ⟨second, glides, ?_⟩
    intro third pause
    obtain ⟨reachable, ready, -⟩ := pause.kept (reachable.next rfl glides.move) later nofun
    have done := glides_retally reachable.sound.unseized ready rfl
    exact done
  · intro call rest hold found tasks held mode more first meanwhile
    obtain ⟨reachable, same, holds⟩ := meanwhile.kept run.reachable found (by simp [tasks])
    exact glides_lower reachable.sound.unseized same tasks ((holds id).trans held) mode more

/-- Thread 1, which reads at depth two, is about to enter once more; thread 2 still waits to write. -/
def poise : List Move :=
  nesting ++ [.start (.bare 1) 4 (.enter 0 .shared "again")]

def poised : Session := ((initial .empty).follow poise).getD (initial .empty)

theorem poised_run : Run .empty ((initial .empty).moments poise) poised :=
  Run.initial.follow (by decide) (rfl : (initial .empty).follow poise = some poised)

theorem poised_reentry_never_waits :
    (poised.world.lock 0).gate.waitingWriters = [⟨2⟩] ∧
      ops ⟨1⟩ 0 ((initial .empty).moments poise) = [.acquire .shared] ∧
      ∃ second last, Glides ⟨1⟩ poised second ∧ Glides ⟨1⟩ second last ∧
        ∃ call, callOf last.pending ⟨1⟩ = some call ∧ call.isDone = true ∧
          (last.world.lock 0).gate.waitingWriters = [⟨2⟩] := by
  have disciplined : poised.Disciplined ((initial .empty).moments poise) ⟨1⟩ 0 :=
    reentry_never_waits poised_run ⟨1⟩ 0
  have queue : (poised.world.lock 0).gate.waitingWriters = [⟨2⟩] := by decide +kernel
  refine ⟨queue, by decide +kernel, ?_⟩
  obtain ⟨second, first, onward⟩ :=
    disciplined.entering _ "again" [] _ rfl rfl rfl rfl poised .refl
  obtain ⟨last, next, done⟩ := onward second .refl
  refine ⟨second, last, first, next, _, done, rfl, ?_⟩
  rw [next.gates, first.gates]
  exact queue

end Session

end GuardedDump
