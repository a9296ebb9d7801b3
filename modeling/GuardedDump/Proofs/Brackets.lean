import GuardedDump.Proofs.Ledger

/-!
# A hold is a depth

The calls of a thread on a lock that came to their end without a panic are its deeds. Between two
calls the hold of the thread is the bracket that its deeds have open: nothing if every entrance has
been left, else the mode, purpose, origin and time of the outermost entrance, with the depth as count
(`Session.hold_is_depth`). Nobody else and no other lock has a say in it.
-/

namespace GuardedDump

inductive Deed where
  | entered (access : Access) (purpose origin : String) (recorded : Option Instant)
  | left (access : Access)
  deriving DecidableEq

namespace Deed

def access : Deed → Access
  | entered access _ _ _ => access
  | left access => access

def change : Deed → Int
  | entered _ _ _ _ => 1
  | left _ => -1

def level : List Deed → Int
  | [] => 0
  | deed :: rest => deed.change + level rest

theorem level_append (before after : List Deed) :
    level (before ++ after) = level before + level after := by
  induction before with
  | nil => exact (Int.zero_add _).symm
  | cons deed rest ih => simp only [List.cons_append, level, ih, Int.add_assoc]

end Deed

theorem Lock.timedRemark_held {lock : Lock} {d : Duration} (late : lock.timeout.ns < d.ns)
    (verbose : lock.level ≠ 0) (access : Access) (purpose origin : String) (t : Thread) :
    lock.timedRemark d ⟨access, .held, purpose, t, origin⟩ =
      some ("[" ++ lock.name ++ "] WARNING: " ++ access.title ++ " lock held for purpose '" ++
        purpose ++ "' took " ++ d.text ++ " exceeding timeout of " ++ lock.timeout.text ++ " (" ++
        t.label ++ ", " ++ origin ++ ")") := by
  have exceeds : d.exceeds lock.timeout = true := decide_eq_true late
  have words : " lock " ++ ("held" ++ " for purpose '") = " lock held for purpose '" := rfl
  unfold timedRemark overdueText Remark.action Remark.tail Stage.label
  rw [if_pos exceeds, if_neg (by simpa using verbose), ← words]
  simp only [String.append_assoc]

theorem Call.step_held {world : World} {call : Call} {id : LockId} {access : Access} {hold : Hold}
    {rest : List Task}
    (tasks : call.tasks = .leave id access (.remark (some { hold with count := 0 })) :: rest) :
    call.step world = some (world.logLine call.thread (world.lock id).logger
      ((world.lock id).timedRemark (.between hold.acquiredAt world.now)
        ⟨access, .held, hold.purpose, call.thread, hold.origin⟩), { call with tasks := rest }) := by
  unfold Call.step
  rw [tasks]
  rfl

def Task.deed (origin : String) (recorded : Option Instant) : Task → Option Deed
  | enter _ access purpose _ => some (.entered access purpose origin recorded)
  | leave _ access _ => some (.left access)
  | _ => none

structure Log where
  stamp : Option Instant
  deeds : List Deed

def Log.note (log : Log) : Mark → Log
  | .requested _ => log
  | .recorded time => { log with stamp := some time }
  | .entered access purpose origin =>
    ⟨none, log.deeds ++ [.entered access purpose origin log.stamp]⟩
  | .released _ => log
  | .left access => { log with deeds := log.deeds ++ [.left access] }

def Log.ofMarks (marks : List Mark) : Log :=
  marks.foldl note ⟨none, []⟩

/-- The hold of a thread that has done `deeds` at a lock. -/
inductive Standing : List Deed → Option Hold → Prop where
  | free {deeds} (even : Deed.level deeds = 0) : Standing deeds none
  | held {earlier access purpose origin time inner} (even : Deed.level earlier = 0)
      (nested : ∀ part, part <+: inner → 0 ≤ Deed.level part)
      (shared : ∀ deed ∈ inner, deed.access = .shared)
      (single : access = .exclusive → inner = []) :
      Standing (earlier ++ .entered access purpose origin (some time) :: inner)
        (some ⟨access.mode, purpose, time, origin, 1 + Deed.level inner⟩)

namespace Standing

variable {deeds : List Deed} {record other : Option Hold} {hold : Hold}

theorem level_none (standing : Standing deeds none) : Deed.level deeds = 0 := by
  cases standing with
  | free even => exact even

theorem level_some (standing : Standing deeds (some hold)) : Deed.level deeds = hold.count := by
  cases standing with
  | held even =>
      rw [Deed.level_append, even, Int.zero_add]
      rfl

theorem positive (standing : Standing deeds (some hold)) : 0 < Deed.level deeds := by
  cases standing with
  | @held _ _ _ _ _ inner even nested =>
      have more := nested inner (List.prefix_refl inner)
      simp only [Deed.level_append, Deed.level, even, Deed.change]
      omega

theorem not_inside {earlier later inner : List Deed} {deed : Deed} (opens : deed.change = 1)
    (nested : ∀ part, part <+: inner → 0 ≤ Deed.level part) (even : Deed.level earlier = 0)
    (inside : later <+: inner) : Deed.level (earlier ++ deed :: later) ≠ 0 := by
  have more := nested later inside
  simp only [Deed.level_append, Deed.level, even, opens]
  omega

theorem unique (standing : Standing deeds record) (again : Standing deeds other) :
    record = other := by
  cases standing with
  | free even =>
      cases other with
      | none => rfl
      | some hold =>
          have := again.positive
          omega
  | @held earlier access purpose origin time inner even nested =>
      generalize whole : earlier ++ .entered access purpose origin (some time) :: inner = deeds
        at again
      cases again with
      | free level =>
          subst whole
          exact absurd level (not_inside rfl nested even (List.prefix_refl inner))
      | @held earlier' _ _ _ _ inner' even' nested' =>
          rcases List.append_eq_append_iff.mp whole with
            ⟨between, rfl, rest⟩ | ⟨between, rfl, rest⟩
          · cases between with
            | nil =>
                cases rest
                rfl
            | cons deed between =>
                cases rest
                exact absurd even' (not_inside rfl nested even (List.prefix_append ..))
          · cases between with
            | nil =>
                cases rest
                rfl
            | cons deed between =>
                cases rest
                exact absurd even (not_inside rfl nested' even' (List.prefix_append ..))

theorem opened {earlier : List Deed} (standing : Standing earlier none) (access : Access)
    (purpose origin : String) (time : Instant) :
    Standing (earlier ++ [.entered access purpose origin (some time)])
      (some ⟨access.mode, purpose, time, origin, 1⟩) := by
  apply Standing.held standing.level_none
  · intro part within
    rw [List.prefix_nil.mp within]
    exact Int.le_refl 0
  · exact fun _ member => absurd member List.not_mem_nil
  · exact fun _ => rfl

theorem nested (standing : Standing deeds (some hold)) (mode : hold.mode = .shared) (deed : Deed)
    (shared : deed.access = .shared) (more : 1 ≤ hold.count + deed.change) :
    Standing (deeds ++ [deed]) (some { hold with count := hold.count + deed.change }) := by
  cases standing with
  | @held earlier access purpose origin time inner even nested inside single =>
      have reader : access = .shared := Access.mode_injective mode
      have count : 1 + Deed.level inner + deed.change = 1 + Deed.level (inner ++ [deed]) := by
        simp only [Deed.level_append, Deed.level]
        omega
      simp only [List.append_assoc, List.cons_append, count]
      apply Standing.held even
      · intro part within
        rcases List.prefix_concat_iff.mp within with rfl | before
        · simp only at more
          omega
        · exact nested part before
      · intro later member
        rcases List.mem_append.mp member with before | last
        · exact inside later before
        · rw [List.mem_singleton.mp last]
          exact shared
      · rw [reader]
        exact nofun

theorem closed (standing : Standing deeds (some hold)) (last : hold.count = 1) (access : Access) :
    Standing (deeds ++ [.left access]) none := by
  apply Standing.free
  simp only [Deed.level_append, standing.level_some, last, Deed.level, Deed.change]
  omega

end Standing

theorem Log.ofMarks_append (marks more : List Mark) :
    ofMarks (marks ++ more) = more.foldl note (ofMarks marks) :=
  List.foldl_append

theorem Ledger.standing {marks : List Mark} {record : Option Hold}
    (ledger : Ledger marks record) : Standing (Log.ofMarks marks).deeds record := by
  induction ledger with
  | blank => exact .free rfl
  | opened earlier ih =>
      rw [Log.ofMarks_append]
      exact ih.opened _ _ _ _
  | @deepened marks hold purpose origin earlier mode ih =>
      rw [Log.ofMarks_append]
      have positive := earlier.positive
      exact ih.nested mode (.entered .shared purpose origin (Log.ofMarks marks).stamp) rfl
        (by simp only [Deed.change]; omega)
  | lowered earlier mode more ih =>
      rw [Log.ofMarks_append]
      exact ih.nested mode (.left .shared) rfl (by simp only [Deed.change]; omega)
  | closed earlier mode last ih =>
      rw [Log.ofMarks_append]
      exact ih.closed last _

theorem Stride.log {world : World} {ctx : Context} {id : LockId} {task : Task}
    {later : Option Task} {mark : Option Mark} {target : Lock}
    (stride : Stride world ctx id task later mark target) (log : Log) :
    match later with
    | none => ∃ deed recorded, task.deed ctx.origin recorded = some deed ∧
        (mark.toList.foldl Log.note log).deeds = log.deeds ++ [deed]
    | some onward => onward.lock? = some id ∧
        (mark.toList.foldl Log.note log).deeds = log.deeds := by
  cases stride with
  | tally | retally => exact ⟨_, log.stamp, rfl, rfl⟩
  | lower | remark => exact ⟨_, none, rfl, rfl⟩
  | _ => exact ⟨rfl, rfl⟩

theorem Call.step_lower {world : World} {call : Call} {id : LockId} {rest : List Task} {hold : Hold}
    (tasks : call.tasks = .leave id .shared .drop :: rest)
    (held : (world.lock id).table.get? call.thread = some hold) (mode : hold.mode = .shared)
    (more : 1 < hold.count) :
    call.step world = some (world.setLock id
      ((world.lock id).record call.thread { hold with count := hold.count - 1 }),
        { call with tasks := rest }) := by
  have dropped : (world.lock id).drop call.ctx.thread .shared =
      (.ok none, (world.lock id).record call.thread { hold with count := hold.count - 1 }) := by
    simp [Lock.drop_eq, show (world.lock id).table.get? call.ctx.thread = _ from held, mode,
      Access.mode, more, Call.thread]
  unfold Call.step
  rw [tasks]
  simp only [Call.stepLeave, Call.thread] at dropped ⊢
  simp only [dropped]

namespace Session

def deeds (t : Thread) (id : LockId) (past : List (Session × Move)) : List Deed :=
  (Log.ofMarks (marks t id past)).deeds

def Acts (session : Session) (t : Thread) (id : LockId) (move : Move) : Prop :=
  move = .step t ∧ ∃ call, callOf session.pending t = some call ∧
    ∃ task ∈ call.tasks.head?, task.lock? = some id

theorem Part.holdOf_of_not_acts {session after : Session} {move : Move} {t : Thread} {id : LockId}
    (part : Part t session move after) (quiet : ¬ session.Acts t id move) :
    after.holdOf id t = session.holdOf id t := by
  cases part with
  | begins _ _ _ holds | ends _ _ _ _ holds | watches _ _ holds => exact holds id
  | @acts call call' own found step later =>
      cases tasks : call.tasks with
      | nil =>
          simp only [Call.step, tasks] at step
          cases step
      | cons task rest =>
          have other : task.lock? ≠ some id := fun same =>
            quiet ⟨own, call, found, task, by rw [tasks]; rfl, same⟩
          unfold holdOf
          rw [Call.step_lock_of_ne tasks other step]

theorem mark_of_not_acts {session : Session} {move : Move} {t : Thread} {id : LockId}
    (quiet : ¬ session.Acts t id move) : session.mark t id move = none := by
  by_cases own : move = .step t
  · subst own
    simp only [mark, if_true]
    cases found : callOf session.pending t with
    | none => rfl
    | some call =>
        simp only [Option.bind_some, Call.mark]
        split
        · rfl
        case h_2 task rest tasks =>
          exact if_neg fun same => quiet ⟨rfl, call, found, task, by rw [tasks]; rfl, same⟩
  · exact mark_of_ne own

theorem mark_step {session : Session} {t : Thread} {id : LockId} {call : Call} {task : Task}
    {rest : List Task} (found : callOf session.pending t = some call)
    (tasks : call.tasks = task :: rest) (own : task.lock? = some id) :
    session.mark t id (.step t) = task.mark session.world call.ctx := by
  simp only [mark, if_true, found, Option.bind_some]
  exact Call.mark_own tasks own session.world

theorem deeds_snoc (t : Thread) (id : LockId) (past : List (Session × Move)) (session : Session)
    (move : Move) :
    deeds t id (past ++ [(session, move)]) =
      ((session.mark t id move).toList.foldl Log.note (Log.ofMarks (marks t id past))).deeds := by
  unfold deeds
  rw [marks_snoc, Log.ofMarks_append]

variable {failures : Failures} {past : List (Session × Move)} {session : Session} {t : Thread}
  {id : LockId} {call : Call} {rest : List Task}

theorem Run.reports (run : Run failures past session) {access : Access} {left : Option Hold}
    (found : callOf session.pending t = some call)
    (tasks : call.tasks = .leave id access (.remark left) :: rest) :
    ∃ hold, Standing (deeds t id past) (some hold) ∧ hold.mode = access.mode ∧ hold.count = 1 ∧
      left = some { hold with count := 0 } := by
  have accounted := run.accounted t id
  simp only [Accounted, found, Call.Accounted, tasks] at accounted
  unfold deeds
  generalize marks t id past = all at accounted
  generalize session.holdOf id t = record at accounted
  cases accounted with
  | resting quiet => cases (Task.phaseAt_own rfl).symm.trans quiet
  | @released _ marks hold ledger mode last =>
      have standing := ledger.standing
      refine ⟨hold, ?_, mode, last, rfl⟩
      rw [Log.ofMarks_append]
      exact standing

/-- The holds of `t` in the lock `id` are the brackets of its own calls. -/
structure Nests (past : List (Session × Move)) (session : Session) (t : Thread) (id : LockId) :
    Prop where
  determined : phaseOf session.pending id t = .outside →
    ∀ record, Standing (deeds t id past) record ↔ session.holdOf id t = record
  counted : ∀ call task rest world later, callOf session.pending t = some call →
    call.tasks = task :: rest → task.lock? = some id →
    call.step session.world = some (world, later) →
      (∃ deed recorded, task.deed call.ctx.origin recorded = some deed ∧
          deeds t id (past ++ [(session, .step t)]) = deeds t id past ++ [deed] ∧
          later = { call with tasks := rest }) ∨
        deeds t id (past ++ [(session, .step t)]) = deeds t id past ∧
          ((∃ onward, onward.lock? = some id ∧ later = { call with tasks := onward :: rest }) ∨
            ∃ panic, later = { call with tasks := [], panic := some panic })
  reported : ∀ call access left rest, callOf session.pending t = some call →
    call.tasks = .leave id access (.remark left) :: rest →
      ∃ hold, Standing (deeds t id past) (some hold) ∧ hold.mode = access.mode ∧ hold.count = 1 ∧
        call.step session.world =
          some (session.world.logLine t (session.world.lock id).logger
            ((session.world.lock id).timedRemark (.between hold.acquiredAt session.world.now)
              ⟨access, .held, hold.purpose, t, hold.origin⟩), { call with tasks := rest })
  overdue : ∀ call access left rest hold, callOf session.pending t = some call →
    call.tasks = .leave id access (.remark left) :: rest →
    Standing (deeds t id past) (some hold) →
    (session.world.lock id).timeout.ns < (Duration.between hold.acquiredAt session.world.now).ns →
    (session.world.lock id).level ≠ 0 →
      call.step session.world =
        some (session.world.log t (session.world.lock id).logger
          ("[" ++ (session.world.lock id).name ++ "] WARNING: " ++ access.title ++
            " lock held for purpose '" ++ hold.purpose ++ "' took " ++
            (Duration.between hold.acquiredAt session.world.now).text ++ " exceeding timeout of " ++
            (session.world.lock id).timeout.text ++ " (" ++ t.label ++ ", " ++ hold.origin ++ ")"),
          { call with tasks := rest })
  silent : ∀ call rest hold, callOf session.pending t = some call →
    call.tasks = .leave id .shared .drop :: rest → session.holdOf id t = some hold →
    hold.mode = .shared → 1 < hold.count →
      ∃ world, call.step session.world = some (world, { call with tasks := rest }) ∧
        world.history = session.world.history
  framed : ∀ move after, move.injects = false → session.move? move = some after →
    ¬ session.Acts t id move →
      after.holdOf id t = session.holdOf id t ∧
        deeds t id (past ++ [(session, move)]) = deeds t id past

theorem hold_is_depth (run : Run failures past session) (t : Thread) (id : LockId) :
    session.Nests past t id := by
  refine ⟨?_, ?_, ?_, ?_, ?_, ?_⟩
  · intro outside record
    have standing := (run.ledger outside).standing
    constructor
    · exact fun other => standing.unique other
    · rintro rfl
      exact standing
  · intro call task rest world later found tasks own step
    rw [deeds_snoc, mark_step found tasks own]
    rcases Call.step_strides tasks own step with
      ⟨panic, -, rfl, unmarked, -⟩ | ⟨onward, target, stride, rfl, -⟩
    · have unmarked : task.mark session.world call.ctx = none := unmarked
      rw [unmarked]
      exact .inr ⟨rfl, .inr ⟨panic, rfl⟩⟩
    · have logged := stride.log (Log.ofMarks (marks t id past))
      cases onward with
      | none =>
          obtain ⟨deed, recorded, kind, added⟩ := logged
          exact .inl ⟨deed, recorded, kind, added, rfl⟩
      | some onward => exact .inr ⟨logged.2, .inl ⟨onward, logged.1, rfl⟩⟩
  · intro call access left rest found tasks
    obtain ⟨hold, standing, mode, last, rfl⟩ := run.reports found tasks
    obtain ⟨-, -, -, rfl⟩ := callOf_eq_some found
    exact ⟨hold, standing, mode, last, Call.step_held tasks⟩
  · intro call access left rest hold found tasks standing late verbose
    obtain ⟨other, again, -, -, rfl⟩ := run.reports found tasks
    obtain rfl : hold = other := Option.some.inj (standing.unique again)
    obtain ⟨-, -, -, rfl⟩ := callOf_eq_some found
    rw [Call.step_held tasks, Lock.timedRemark_held late verbose]
    rfl
  · intro call rest hold found tasks held mode more
    obtain ⟨-, -, -, rfl⟩ := callOf_eq_some found
    exact ⟨_, Call.step_lower tasks held mode more, rfl⟩
  · intro move after allowed action quiet
    have part := move?_part run.reachable.sound allowed action t
    refine ⟨part.holdOf_of_not_acts quiet, ?_⟩
    rw [deeds_snoc, mark_of_not_acts quiet]
    rfl

/-- Thread 1 enters to read, is refused when it wants to write, and enters to read once more while
thread 2 waits to write. -/
def nesting : List Move :=
  List.flatten [
    [.advance ⟨3⟩],
    .start (.bare 1) 0 (.enter 0 .shared "outer") :: List.replicate 5 (.step ⟨1⟩), [.finish ⟨1⟩],
    .start (.bare 2) 1 (.enter 0 .exclusive "update") :: List.replicate 2 (.step ⟨2⟩),
    [.advance ⟨4⟩],
    [.start (.bare 1) 2 (.enter 0 .exclusive "upgrade"), .step ⟨1⟩, .finish ⟨1⟩],
    [.start (.bare 1) 3 (.enter 0 .shared "inner"), .step ⟨1⟩, .step ⟨1⟩, .finish ⟨1⟩]]

def nested : Session := ((initial .empty).follow nesting).getD (initial .empty)

theorem nested_run : Run .empty ((initial .empty).moments nesting) nested :=
  Run.initial.follow (by decide) (rfl : (initial .empty).follow nesting = some nested)

theorem nested_hold_is_depth :
    phaseOf nested.pending 0 ⟨1⟩ = .outside ∧
      deeds ⟨1⟩ 0 ((initial .empty).moments nesting) =
        [.entered .shared "outer" Frame.nowhere (some 3),
          .entered .shared "inner" Frame.nowhere none] ∧
      nested.holdOf 0 ⟨1⟩ = some ⟨.shared, "outer", 3, Frame.nowhere, 2⟩ := by
  have depth : nested.Nests ((initial .empty).moments nesting) ⟨1⟩ 0 := hold_is_depth nested_run ⟨1⟩ 0
  have outside : phaseOf nested.pending 0 ⟨1⟩ = .outside := rfl
  have done : deeds ⟨1⟩ 0 ((initial .empty).moments nesting) =
      [.entered .shared "outer" Frame.nowhere (some 3),
        .entered .shared "inner" Frame.nowhere none] := by
    decide +kernel
  refine ⟨outside, done, ?_⟩
  rw [← depth.determined outside, done]
  have outer := (Standing.free (rfl : Deed.level [] = 0)).opened .shared "outer" Frame.nowhere 3
  exact outer.nested rfl (.entered .shared "inner" Frame.nowhere none) rfl (by decide)

end Session

end GuardedDump
