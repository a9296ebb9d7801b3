import GuardedDump.Proofs.Balance

namespace GuardedDump

/-- What a run shows of the waits at a lock: when each thread last asked, how long it last waited, and
how many waits were too long for the timeout at the end of the call. -/
structure Stopwatch where
  asked : Thread → Instant
  waited : Thread → Duration
  overdue : Nat

namespace Stopwatch

def idle : Stopwatch := ⟨fun _ => 0, fun _ => .zero, 0⟩

def noteTask (watch : Stopwatch) (id : LockId) (world : World) (t : Thread) : Task → Stopwatch
  | .enter lock _ _ .ask =>
    if lock = id then { watch with asked := Function.update watch.asked t world.now } else watch
  | .enter lock _ _ (.wait _) =>
    if lock = id then
      { watch with waited := Function.update watch.waited t (.between (watch.asked t) world.now) }
    else watch
  | .enter lock _ _ (.tally _) =>
    if lock = id ∧ (watch.waited t).exceeds (world.lock id).timeout then
      { watch with overdue := watch.overdue + 1 }
    else watch
  | _ => watch

def note (id : LockId) (watch : Stopwatch) (moment : Session × Move) : Stopwatch :=
  match moment.2 with
  | .step t =>
    match (Session.callOf moment.1.pending t).bind fun call => call.tasks.head? with
    | none => watch
    | some task => watch.noteTask id moment.1.world t task
  | _ => watch

def ofRun (id : LockId) (past : List (Session × Move)) : Stopwatch :=
  past.foldl (note id) idle

def Shows (watch : Stopwatch) (id : LockId) (t : Thread) : Task → Prop
  | .enter lock _ _ (.wait since) => lock = id → watch.asked t = since
  | .enter lock _ _ (.record waited) => lock = id → watch.waited t = waited
  | .enter lock _ _ (.tally waited) => lock = id → watch.waited t = waited
  | _ => True

variable {watch : Stopwatch} {id : LockId} {t u : Thread} {task : Task}

theorem shows_of_outside (outside : task.phaseAt id = .outside) : watch.Shows id t task := by
  cases task with
  | enter lock wish purpose point =>
      cases point with
      | wait | record | tally =>
          intro own
          subst own
          rw [Task.phaseAt_own rfl] at outside
          cases outside
      | _ => trivial
  | leave | close | retire | survey | visit | demand | dump => trivial

theorem noteTask_of_ne (watch : Stopwatch) (world : World) (different : u ≠ t) :
    (watch.noteTask id world t task).asked u = watch.asked u ∧
      (watch.noteTask id world t task).waited u = watch.waited u := by
  unfold noteTask
  split <;> first | (split <;> simp [different]) | simp

theorem noteTask_of_outside (watch : Stopwatch) (world : World)
    (outside : task.phaseAt id = .outside) : watch.noteTask id world t task = watch := by
  cases task with
  | enter lock wish purpose point =>
      by_cases own : lock = id
      · subst own
        rw [Task.phaseAt_own rfl] at outside
        cases point <;> first | rfl | cases outside
      · cases point <;> simp [noteTask, own]
  | _ => rfl

theorem Shows.congr {later : Stopwatch} (shows : watch.Shows id t task)
    (asked : later.asked t = watch.asked t) (waited : later.waited t = watch.waited t) :
    later.Shows id t task := by
  unfold Shows at shows ⊢
  split at shows <;> simp_all

theorem Shows.stride {world : World} {ctx : Context} {later : Option Task} {mark : Option Mark}
    {target : Lock} (shows : watch.Shows id ctx.thread task)
    (stride : Stride world ctx id task later mark target) :
    (∀ next ∈ later, (watch.noteTask id world ctx.thread task).Shows id ctx.thread next) ∧
      target.contentions + watch.overdue =
        (world.lock id).contentions + (watch.noteTask id world ctx.thread task).overdue := by
  cases stride with
  | ask => simp [noteTask, Shows, Lock.ask]
  | welcome => simp_all [noteTask, Shows]
  | record => simpa [noteTask, Shows, Lock.record, Lock.seize, Lock.cede] using shows
  | @tally access purpose waited =>
      have own : watch.waited ctx.thread = waited := shows rfl
      refine ⟨fun next member => (by cases member), ?_⟩
      cases late : waited.exceeds (world.lock id).timeout <;>
        simp [noteTask, own, late, Lock.tallyWait, Lock.tally]
      omega
  | _ => exact ⟨fun next member => by cases member <;> trivial, rfl⟩

end Stopwatch

namespace Call

variable {world world' : World} {call call' : Call} {id : LockId} {watch : Stopwatch}

theorem step_watch (orderly : call.Orderly)
    (fits : Fits call.thread (call.phaseAt id) ((world.lock id).table.get? call.thread)
      ((world.lock id).gate.stand call.thread))
    {task : Task} {rest : List Task} (tasks : call.tasks = task :: rest)
    (shows : watch.Shows id call.thread task) (step : call.step world = some (world', call')) :
    (∀ next ∈ call'.tasks.head?,
        (watch.noteTask id world call.thread task).Shows id call.thread next) ∧
      (world'.lock id).contentions + watch.overdue =
        (world.lock id).contentions + (watch.noteTask id world call.thread task).overdue := by
  simp only [phaseAt, tasks] at fits
  have resting {stopped : Call} (outside : stopped.phaseAt id = .outside) (later : Stopwatch) :
      ∀ next ∈ stopped.tasks.head?, later.Shows id call.thread next := by
    intro next member
    apply Stopwatch.shows_of_outside
    unfold phaseAt at outside
    split at outside
    case h_1 none =>
      rw [none] at member
      cases member
    case h_2 first behind found =>
      rw [found] at member
      cases member
      exact outside
  by_cases own : task.lock? = some id
  · rcases step_counts tasks own fits step with
      ⟨panic, same, rfl, -, outside⟩ | ⟨later, target, stride, rfl, -, -, contentions⟩
    · rw [watch.noteTask_of_outside world outside,
        Lock.view_of_cede Lock.contentions (fun _ => rfl) same]
      exact ⟨resting rfl watch, rfl⟩
    · obtain ⟨ahead, counted⟩ := shows.stride stride
      rw [contentions]
      refine ⟨?_, counted⟩
      cases later with
      | none => exact resting (orderly.phaseAt_rest tasks id) _
      | some next => exact ahead
  · rw [watch.noteTask_of_outside world (Task.phaseAt_of_ne own), step_lock_of_ne tasks own step]
    exact ⟨resting (step_phaseAt_of_ne orderly tasks own step) watch, rfl⟩

end Call

namespace Session

variable {failures : Failures} {past : List (Session × Move)} {session after : Session}
  {move : Move} {id : LockId} {watch : Stopwatch}

structure Clocked (session : Session) (id : LockId) (watch : Stopwatch) : Prop where
  shown : ∀ t call, callOf session.pending t = some call →
    ∀ task ∈ call.tasks.head?, watch.Shows id t task
  counted : (session.world.lock id).contentions = watch.overdue

theorem note_step {t : Thread} {call : Call} {task : Task} {rest : List Task}
    (found : callOf session.pending t = some call) (tasks : call.tasks = task :: rest) :
    watch.note id (session, .step t) = watch.noteTask id session.world t task := by
  simp only [Stopwatch.note, found, Option.bind_some, tasks, List.head?_cons]

theorem note_of_ne (watch : Stopwatch) (id : LockId) (session : Session) {t : Thread}
    (other : move ≠ .step t) :
    (watch.note id (session, move)).asked t = watch.asked t ∧
      (watch.note id (session, move)).waited t = watch.waited t := by
  cases move with
  | step u =>
      have different : t ≠ u := fun same => other (by rw [same])
      simp only [Stopwatch.note]
      split
      · exact ⟨rfl, rfl⟩
      · exact watch.noteTask_of_ne session.world different
  | _ => exact ⟨rfl, rfl⟩

theorem Clocked.step (clocked : session.Clocked id watch) (sound : session.Sound) {t : Thread}
    {call call' : Call} {world : World} (found : callOf session.pending t = some call)
    (step : call.step session.world = some (world, call')) :
    (∀ task ∈ call'.tasks.head?, (watch.note id (session, .step t)).Shows id t task) ∧
      (world.lock id).contentions = (watch.note id (session, .step t)).overdue := by
  obtain ⟨p, member, rfl, rfl⟩ := callOf_eq_some found
  cases tasks : p.call.tasks with
  | nil =>
      simp only [Call.step, tasks] at step
      cases step
  | cons task rest =>
      have fits := (sound.agrees id).each p.call.thread
      rw [phaseOf_of_mem sound.distinct member] at fits
      have shows := clocked.shown _ _ found task (by rw [tasks]; rfl)
      obtain ⟨ahead, change⟩ :=
        Call.step_watch (sound.orderly p member) fits tasks shows step
      have counted := clocked.counted
      rw [note_step found tasks]
      exact ⟨ahead, by omega⟩

theorem Clocked.shown_next (clocked : session.Clocked id watch) (sound : session.Sound) {t : Thread}
    (part : Part t session move after) {call : Call} (found : callOf after.pending t = some call) :
    ∀ task ∈ call.tasks.head?, (watch.note id (session, move)).Shows id t task := by
  cases part with
  | acts own was step later =>
      cases later.symm.trans found
      rw [own]
      exact (clocked.step sound was step).1
  | @begins ctx operation other idle later =>
      cases later.symm.trans found
      have outside := operation_call_phaseAt operation ctx id
      intro task member
      apply Stopwatch.shows_of_outside
      cases operation <;> cases member <;> exact outside
  | ends other was done later => cases later.symm.trans found
  | watches other later =>
      intro task member
      obtain ⟨asked, waited⟩ := note_of_ne watch id session other
      exact (clocked.shown t call (later ▸ found) task member).congr asked waited

theorem Clocked.next (clocked : session.Clocked id watch) (sound : session.Sound)
    (allowed : move.injects = false) (action : session.move? move = some after) :
    after.Clocked id (watch.note id (session, move)) := by
  refine ⟨fun t call => clocked.shown_next sound (move?_part sound allowed action t), ?_⟩
  have counted := clocked.counted
  cases move with
  | step t =>
      cases move?_part sound allowed action t with
      | acts own was step later => exact (clocked.step sound was step).2
      | begins other | ends other | watches other => exact absurd rfl other
  | start | finish =>
      simp only [move?] at action
      split at action <;> cases action
      exact counted
  | command ctx command =>
      simp only [move?] at action
      split at action <;> cases action
      by_cases plain : command.isPlain = true
      · exact ((session.perform_tuned ctx plain).contentions id).trans counted
      · cases command with
        | newLock name timeout logger =>
            exact (newLock_counts session.world name timeout logger id).2.trans counted
        | inject => cases allowed
        | _ => exact absurd rfl plain
  | advance d =>
      cases action
      exact counted

theorem Run.clocked (run : Run failures past session) (id : LockId) :
    session.Clocked id (.ofRun id past) := by
  induction run with
  | initial => exact ⟨fun _ _ found => (by cases found), by cases id <;> rfl⟩
  | @next past session after move previous allowed action ih =>
      have noted : Stopwatch.ofRun id (past ++ [(session, move)]) =
          (Stopwatch.ofRun id past).note id (session, move) := List.foldl_append
      rw [noted]
      exact ih.next previous.reachable.sound allowed action

def Completes (session : Session) (id : LockId) (move : Move) : Prop :=
  ∃ t call access purpose waited rest, move = .step t ∧ callOf session.pending t = some call ∧
    call.tasks = .enter id access purpose (.tally waited) :: rest

theorem note_overdue (watch : Stopwatch) (incomplete : ¬ session.Completes id move) :
    (watch.note id (session, move)).overdue = watch.overdue := by
  cases move with
  | step t =>
      cases found : callOf session.pending t with
      | none => simp only [Stopwatch.note, found, Option.bind_none]
      | some call =>
          cases tasks : call.tasks with
          | nil => simp only [Stopwatch.note, found, Option.bind_some, tasks, List.head?_nil]
          | cons task rest =>
              rw [note_step found tasks]
              unfold Stopwatch.noteTask
              split
              · split <;> rfl
              · split <;> rfl
              case h_3 lock access purpose waited =>
                have other : lock ≠ id := by
                  rintro rfl
                  exact incomplete ⟨t, call, access, purpose, waited, rest, rfl, found, tasks⟩
                simp only [other, false_and, if_false]
              · rfl
  | _ => rfl

theorem writers_cases (sound : session.Sound) (id : LockId) :
    (session.world.lock id).table.holds .exclusive = [] ∨
      ∃ t hold, hold.count = 1 ∧ (session.world.lock id).table.holds .exclusive = [(t, hold)] := by
  have agrees := sound.agrees id
  cases found : (session.world.lock id).table.holds .exclusive with
  | nil => exact .inl rfl
  | cons entry rest =>
      obtain ⟨t, hold⟩ := entry
      have listed : (t, hold) ∈ (session.world.lock id).table.holds .exclusive := by simp [found]
      obtain ⟨member, mode⟩ := List.mem_filter.mp listed
      have exclusive : hold.mode = .exclusive := of_decide_eq_true mode
      have record := agrees.table.get?_eq_some_iff.mpr member
      have single := (agrees.owns_exclusive_of_record record exclusive).2
      refine .inr ⟨t, hold, single, ?_⟩
      rw [← found]
      simp [Table.holds, agrees.alone member exclusive, exclusive]

structure Conserved (past : List (Session × Move)) (session : Session) (id : LockId) : Prop where
  shared : (∀ t, phaseOf session.pending id t = .outside) →
    ((session.world.lock id).sharedCount : Int) =
      departures id .shared past + (session.world.lock id).table.depth .shared
  exclusive : (∀ t, phaseOf session.pending id t = .outside) →
    (session.world.lock id).exclusiveCount =
      departures id .exclusive past + ((session.world.lock id).table.holds .exclusive).length
  single : ((session.world.lock id).table.holds .exclusive).length ≤ 1
  departs : ∀ t call access point rest world call', callOf session.pending t = some call →
    call.tasks = .leave id access point :: rest → call.step session.world = some (world, call') →
      if session.leaves id access (.step t) then call' = { call with tasks := rest }
      else (∃ panic, call' = call.crash panic) ∨
        ∃ onward, call'.tasks = .leave id access onward :: rest
  contentions : (session.world.lock id).contentions = (Stopwatch.ofRun id past).overdue
  untouched : ∀ move after, move.injects = false → session.move? move = some after →
    ¬ session.Completes id move →
      (after.world.lock id).contentions = (session.world.lock id).contentions

theorem counters_conserved (run : Run failures past session) (id : LockId) :
    session.Conserved past id := by
  have sound := run.reachable.sound
  have clocked := run.clocked id
  have writers := writers_cases sound id
  have balanced (access : Access) (outside : ∀ t, phaseOf session.pending id t = .outside) :
      ((session.world.lock id).acquired access : Int) =
        departures id access past + (session.world.lock id).table.depth access.mode := by
    have owed : owing session.pending id access = 0 := by
      apply owing_of_outside
      intro p member
      rw [← phaseOf_of_mem sound.distinct member]
      exact outside p.call.thread
    have balanced := run.balanced id access
    unfold Balanced at balanced
    omega
  refine ⟨balanced .shared, ?_, ?_, ?_, clocked.counted, ?_⟩
  · intro outside
    have even := balanced .exclusive outside
    have deep : (session.world.lock id).table.depth .exclusive =
        ((session.world.lock id).table.holds .exclusive).length := by
      unfold Table.depth
      rcases writers with none | ⟨t, hold, single, only⟩
      · simp [none]
      · simp [only, single]
    simp only [Access.mode, Lock.acquired] at even
    omega
  · rcases writers with none | ⟨t, hold, single, only⟩
    · simp [none]
    · simp [only]
  · intro t call access point rest world call' found tasks step
    have marked : session.leaves id access (.step t) =
        decide (call.mark session.world id = some (.left access)) := by
      simp [leaves, mark, found]
    simpa only [marked, decide_eq_true_eq] using Call.step_leave tasks step
  · intro move after allowed action incomplete
    rw [(clocked.next sound allowed action).counted, note_overdue _ incomplete, clocked.counted]

/-- Thread 2 waits for two seconds at the silent main lock until thread 1 has written, reads, enters
once more, tries to leave as a writer and then leaves one level. -/
def congestion : List Move :=
  List.flatten [
    .start (.bare 1) 0 (.enter 0 .exclusive "update") :: List.replicate 5 (.step ⟨1⟩), [.finish ⟨1⟩],
    [.command (.bare 3) (.setLevel 0 0)],
    .start (.bare 2) 1 (.enter 0 .shared "scan") :: List.replicate 2 (.step ⟨2⟩),
    [.advance ⟨2000000000⟩],
    .start (.bare 1) 2 (.leave 0 .exclusive) :: List.replicate 3 (.step ⟨1⟩), [.finish ⟨1⟩],
    List.replicate 3 (.step ⟨2⟩), [.finish ⟨2⟩],
    .start (.bare 2) 3 (.enter 0 .shared "scan") :: List.replicate 2 (.step ⟨2⟩), [.finish ⟨2⟩],
    [.start (.bare 2) 4 (.leave 0 .exclusive), .step ⟨2⟩, .finish ⟨2⟩],
    [.start (.bare 2) 5 (.leave 0 .shared), .step ⟨2⟩, .finish ⟨2⟩]]

def congested : Session := ((initial .empty).follow congestion).getD (initial .empty)

theorem congested_run : Run .empty ((initial .empty).moments congestion) congested :=
  Run.initial.follow (by decide) (rfl : (initial .empty).follow congestion = some congested)

theorem congested_counters_conserved :
    congested.Conserved ((initial .empty).moments congestion) 0 ∧
      congested.pending = [] ∧ (congested.world.lock 0).level = 0 ∧
      ((congested.world.lock 0).sharedCount, (congested.world.lock 0).exclusiveCount,
        (congested.world.lock 0).contentions) = (2, 1, 1) ∧
      (departures 0 .shared ((initial .empty).moments congestion),
        departures 0 .exclusive ((initial .empty).moments congestion)) = (1, 1) := by
  refine ⟨counters_conserved congested_run 0, ?_, ?_, ?_, ?_⟩
  · rfl
  · decide +kernel
  · decide +kernel
  · decide +kernel

end Session

end GuardedDump
