import GuardedDump.Proofs.Hush
import Mathlib.Data.List.Forall2

/-!
# Verbosity

The level of a lock decides what the lock says in the log and nothing else. Two runs that give other
levels to locks and are the same otherwise agree on all that `hush` keeps, and the run in which every
lock has the lower level logs a part of what the other one logs
(`Session.verbosity_shows_in_remarks_only`).
-/

namespace GuardedDump

namespace Lock

variable {lock : Lock} {level : Nat} {text : String}

theorem eq_of_hush {a b : Lock} (same : a.hush = b.hush) : b = { a with level := b.level } := by
  cases a
  cases b
  cases same
  rfl

theorem remark_louder (higher : lock.level ≤ level) {r : Remark} (said : lock.remark r = some text) :
    ({ lock with level } : Lock).remark r = some text := by
  unfold remark at said ⊢
  split at said
  case isTrue loud =>
    rw [if_pos (Nat.ble_eq_true_of_le (Nat.le_trans (Nat.le_of_ble_eq_true loud) higher))]
    exact said
  case isFalse => cases said

theorem timedRemark_louder (higher : lock.level ≤ level) {d : Duration} {r : Remark}
    (said : lock.timedRemark d r = some text) :
    ({ lock with level } : Lock).timedRemark d r = some text := by
  unfold timedRemark at said ⊢
  split at said
  case isTrue overdue =>
    split at said
    · cases said
    case isFalse loud =>
      have positive : level ≠ 0 := by
        rw [beq_iff_eq] at loud
        omega
      rw [if_pos overdue, if_neg (by simpa using positive)]
      exact said
  case isFalse timely =>
    rw [if_neg timely]
    exact remark_louder higher said

theorem event?_louder {t : Thread} {line line' : Option String} {event : Event}
    (more : ∀ text, line = some text → line' = some text)
    (said : lock.event? t line = some event) :
    ({ lock with level } : Lock).event? t line' = some event := by
  obtain ⟨text, found, rfl⟩ := Option.map_eq_some_iff.mp said
  rw [event?, more text found]
  rfl

end Lock

theorem Task.line?_louder {a b : World} (same : a.hush = b.hush)
    (quieter : ∀ id, (a.lock id).level ≤ (b.lock id).level) {ctx : Context} {task : Task}
    {event : Event} (said : task.line? a ctx = some event) : task.line? b ctx = some event := by
  have louder (id : LockId) :
      ∃ level, (a.lock id).level ≤ level ∧ b.lock id = { a.lock id with level } := by
    refine ⟨_, quieter id, Lock.eq_of_hush ?_⟩
    rw [← World.lock_hush, same, World.lock_hush]
  have now : b.now = a.now := (congrArg World.now same).symm
  cases task with
  | enter id access purpose point =>
      obtain ⟨level, higher, lock⟩ := louder id
      cases point with
      | consult | wait | record => cases said
      | ask | reentered =>
          simp only [line?, lock] at said ⊢
          exact Lock.event?_louder (fun _ => Lock.remark_louder higher) said
      | tally waited =>
          simp only [line?, lock] at said ⊢
          exact Lock.event?_louder (fun _ => Lock.timedRemark_louder higher) said
  | leave id access point =>
      obtain ⟨level, higher, lock⟩ := louder id
      cases point with
      | drop | unlatch => cases said
      | remark left =>
          cases left with
          | none => cases said
          | some hold =>
              simp only [line?, lock, now] at said ⊢
              exact Lock.event?_louder (fun _ => Lock.timedRemark_louder higher) said
  | close id =>
      obtain ⟨level, -, lock⟩ := louder id
      simp only [line?, lock] at said ⊢
      exact Lock.event?_louder (fun _ found => found) said
  | retire | survey | visit | demand | dump => cases said

namespace World

theorem take_plain (world : World) (notice : Notice) :
    ∃ more, (world.take notice).history = world.history ++ more ∧
      ∀ event ∈ more, event.isRemark = false := by
  unfold take
  cases notice.destination with
  | warning =>
      simp only [warn]
      split
      · exact ⟨[], (List.append_nil _).symm, fun _ member => absurd member List.not_mem_nil⟩
      · refine ⟨_, rfl, ?_⟩
        intro event member
        rw [List.mem_singleton.mp member]
        exact Text.startsWith_other (c := 'W') (d := '[') (by simp) (by simp) (by decide)
          (logText_starts (warningText_starts _))
  | handler handler =>
      refine ⟨_, rfl, ?_⟩
      intro event member
      rw [List.mem_singleton.mp member]
      rfl
  | exit =>
      refine ⟨_, List.append_assoc .., ?_⟩
      intro event member
      rcases List.mem_pair.mp member with rfl | rfl
      · exact Text.startsWith_other (c := 'F') (d := '[') (by simp) (by simp) (by decide)
          (logText_starts (fatalText_starts ..))
      · rfl

theorem takeAll_plain (world : World) (notices : List Notice) :
    ∃ more, (notices.foldl take world).history = world.history ++ more ∧
      ∀ event ∈ more, event.isRemark = false := by
  induction notices generalizing world with
  | nil => exact ⟨[], (List.append_nil _).symm, fun _ member => absurd member List.not_mem_nil⟩
  | cons notice rest ih =>
      obtain ⟨first, history, plain⟩ := world.take_plain notice
      obtain ⟨later, history', plain'⟩ := ih (world.take notice)
      refine ⟨first ++ later, ?_, ?_⟩
      · rw [List.foldl_cons, history', history, List.append_assoc]
      · intro event member
        exact (List.mem_append.mp member).elim (plain event) (plain' event)

def lines (world : World) (logger : Logger) : List String :=
  world.history.filterMap fun event =>
    match event.happening with
    | .logged taker text => if taker = logger then some text else none
    | _ => none

end World

namespace Session

variable {a b a' b' start after : Session} {move move' : Move} {moves moves' : List Move}

def outcome? (session : Session) : Move → Option Outcome
  | .command ctx command => some (session.perform ctx command).1
  | .finish t => (session.pending.find? fun p => p.call.thread == t).map Pending.outcome
  | _ => none

def Quieter (moment moment' : Session × Move) : Prop :=
  ∀ id < moment.1.world.locks.length,
    (moment.1.world.lock id).level ≤ (moment'.1.world.lock id).level

instance (moment moment' : Session × Move) : Decidable (Quieter moment moment') := by
  unfold Quieter
  infer_instance

/-- Moments of two runs that differ in levels and in what locks say. -/
structure Twins (moment moment' : Session × Move) : Prop where
  sessions : moment.1.hush = moment'.1.hush
  outcomes : (moment.1.outcome? moment.2).map Outcome.hush =
    (moment'.1.outcome? moment'.2).map Outcome.hush
  commands : ∀ ctx command, moment.2 = .command ctx command → adds moment = adds moment'
  remarks : Quieter moment moment' → (adds moment).Sublist (adds moment')

theorem callOf_hush (pending : List Pending) (t : Thread) :
    callOf (pending.map Pending.hush) t = callOf pending t := by
  unfold callOf
  rw [List.find?_map, Option.map_map]
  rfl

theorem callOf_twin (same : a.hush = b.hush) (t : Thread) :
    callOf a.pending t = callOf b.pending t := by
  rw [← callOf_hush, ← callOf_hush b.pending]
  exact congrArg (fun session : Session => callOf session.pending t) same

theorem move?_twin (same : a.hush = b.hush) (retuned : move.Retuned move') :
    (a.move? move).map hush = (b.move? move').map hush := by
  rw [← a.move?_hush .same, same, b.move?_hush retuned]

theorem outcome?_twin (same : a.hush = b.hush) (retuned : move.Retuned move') :
    (a.outcome? move).map Outcome.hush = (b.outcome? move').map Outcome.hush := by
  have performed {ctx : Context} {order order' : Command} (retuned : order.Retuned order') :
      hushed (a.perform ctx order) = hushed (b.perform ctx order') := by
    rw [← a.perform_hush ctx .same, same, b.perform_hush ctx retuned]
  cases retuned with
  | retune retuned => exact congrArg (fun result => some result.1) (performed retuned)
  | same =>
      cases move with
      | command ctx command => exact congrArg (fun result => some result.1) (performed .same)
      | finish t =>
          have found (session : Session) : session.hush.outcome? (.finish t) =
              session.outcome? (.finish t) := by
            simp only [outcome?, hush, List.find?_map, Option.map_map]
            rfl
          rw [← found a, same, found b]
      | start | step | advance => rfl

theorem checks_twin (same : a.hush = b.hush) (retuned : move.Retuned move') :
    (a.notices? move).isSome = (b.notices? move').isSome := by
  have commands (order : Command) (ctx : Context) :
      (order.account? a.world ctx).isSome = (order.account? b.world ctx).isSome := by
    cases order <;> rfl
  simp only [notices?, Option.isSome_map]
  cases retuned with
  | retune retuned =>
      cases retuned with
      | same => exact commands ..
      | setLevel | apply | readAndApply => rfl
  | same =>
      cases move with
      | command ctx command => exact commands ..
      | step t =>
          simp only [account?, callOf_twin same t]
          cases callOf b.pending t with
          | none => rfl
          | some call =>
              simp only [Option.bind_some, Call.account?]
              split <;> rfl
      | start | finish | advance => rfl

theorem move?_adds (action : a.move? move = some a') :
    a'.world.history = a.world.history ++ adds (a, move) ∧
      ((a.notices? move).isSome = true → ∀ event ∈ adds (a, move), event.isRemark = false) := by
  cases found : a.notices? move with
  | none =>
      obtain ⟨history, -⟩ := move?_line action found
      rw [adds_eq action history]
      exact ⟨history, fun checks => absurd checks Bool.false_ne_true⟩
  | some notices =>
      have told := move?_tells action
      rw [found] at told
      obtain ⟨more, history, plain⟩ := a.world.takeAll_plain notices
      rw [← told.history] at history
      rw [adds_eq action history]
      exact ⟨history, fun _ => plain⟩

theorem adds_twin (same : a.hush = b.hush) (retuned : move.Retuned move') :
    adds (a, move) = adds (b, move') ∨
      adds (a, move) = (a.line? move).toList ∧ adds (b, move') = (b.line? move').toList := by
  have moved := move?_twin same retuned
  have checked := checks_twin same retuned
  cases action : a.move? move with
  | none =>
      rw [action] at moved
      have action' : b.move? move' = none := Option.map_eq_none_iff.mp moved.symm
      left
      simp only [adds, action, action']
  | some a' =>
      rw [action] at moved
      obtain ⟨b', action', ends⟩ := Option.map_eq_some_iff.mp moved.symm
      cases checks : (a.notices? move).isSome with
      | false =>
          rw [checks] at checked
          have line := (move?_line action (Option.isNone_iff_eq_none.mp (by simpa using checks))).1
          have line' := (move?_line action'
            (Option.isNone_iff_eq_none.mp (by simpa using checked.symm))).1
          exact .inr ⟨adds_eq action line, adds_eq action' line'⟩
      | true =>
          -- What a check adds is kept by `hush`, and so were both histories before.
          obtain ⟨history, plain⟩ := move?_adds action
          obtain ⟨history', plain'⟩ := move?_adds action'
          have kept {session : Session} {move : Move}
              (plain : ∀ event ∈ adds (session, move), event.isRemark = false) :
              (adds (session, move)).filter (fun event => !event.isRemark) =
                adds (session, move) := by
            rw [List.filter_eq_self]
            intro event member
            rw [plain event member]
            rfl
          have before := congrArg (fun session : Session => session.world.history) same
          have later := congrArg (fun session : Session => session.world.history) ends
          simp only [hush, World.hush] at before later
          rw [history, history', List.filter_append, List.filter_append, kept (plain checks),
            kept (plain' (checked.symm.trans checks)), before] at later
          exact .inl (List.append_cancel_left later).symm

theorem line?_command (same : a.hush = b.hush) {ctx : Context} {order order' : Command}
    (retuned : order.Retuned order') :
    a.line? (.command ctx order) = b.line? (.command ctx order') := by
  have warned : a.world.warned = b.world.warned := by
    change a.hush.world.warned = b.hush.world.warned
    rw [same]
  have hooks : a.world.hooks = b.world.hooks := by
    change a.hush.world.hooks = b.hush.world.hooks
    rw [same]
  cases retuned with
  | setLevel | apply | readAndApply => rfl
  | same => cases order <;> simp only [line?, warned, hooks]

theorem line?_louder (same : a.hush = b.hush) (retuned : move.Retuned move')
    (quieter : ∀ id, (a.world.lock id).level ≤ (b.world.lock id).level) {event : Event}
    (said : a.line? move = some event) : b.line? move' = some event := by
  cases retuned with
  | retune retuned => rw [← line?_command same retuned, said]
  | same =>
      cases move with
      | command ctx command => rw [← line?_command same .same, said]
      | step t =>
          simp only [line?, callOf_twin same t] at said ⊢
          obtain ⟨call, found, said⟩ := Option.bind_eq_some_iff.mp said
          rw [found, Option.bind_some]
          unfold Call.line? at said ⊢
          cases tasks : call.tasks with
          | nil =>
              rw [tasks] at said
              cases said
          | cons task rest =>
              rw [tasks] at said
              exact Task.line?_louder (congrArg Session.world same) quieter said
      | start | finish | advance => cases said

theorem Quieter.all (quieter : Quieter (a, move) (b, move')) (same : a.hush = b.hush) (id : LockId) :
    (a.world.lock id).level ≤ (b.world.lock id).level := by
  by_cases known : id < a.world.locks.length
  · exact quieter id known
  · have sizes : a.world.locks.length = b.world.locks.length := by
      have locks := congrArg (fun session : Session => session.world.locks.length) same
      simpa only [hush, World.hush, List.length_map] using locks
    have unknown : ¬id < b.world.locks.length := sizes ▸ known
    simp [World.lock, known, unknown]

theorem twins_of_hush (same : a.hush = b.hush) (retuned : move.Retuned move') :
    Twins (a, move) (b, move') := by
  refine ⟨same, outcome?_twin same retuned, ?_, ?_⟩
  · rintro ctx command rfl
    obtain equal | ⟨line, line'⟩ := adds_twin same retuned
    · exact equal
    · rw [line, line']
      cases retuned with
      | same => rw [line?_command same .same]
      | retune retuned => rw [line?_command same retuned]
  · intro quieter
    obtain equal | ⟨line, line'⟩ := adds_twin same retuned
    · rw [equal]
    · rw [line, line']
      cases said : a.line? move with
      | none => exact List.nil_sublist _
      | some event => rw [line?_louder same retuned (quieter.all same) said]

theorem follow_adds (schedule : start.follow moves = some after) :
    after.world.history = start.world.history ++ (start.moments moves).flatMap adds := by
  induction moves generalizing start with
  | nil =>
      cases schedule
      exact (List.append_nil _).symm
  | cons move more ih =>
      unfold follow at schedule
      split at schedule
      · cases schedule
      case h_2 next action =>
        rw [ih schedule, (move?_adds action).1]
        simp only [moments, action, List.flatMap_cons, List.append_assoc]

theorem follow_twins (retuned : List.Forall₂ Move.Retuned moves moves') (same : a.hush = b.hush)
    (schedule : a.follow moves = some a') :
    ∃ b', b.follow moves' = some b' ∧ a'.hush = b'.hush ∧
      List.Forall₂ Twins (a.moments moves) (b.moments moves') := by
  induction retuned generalizing a b with
  | nil =>
      cases schedule
      exact ⟨b, rfl, same, .nil⟩
  | @cons move move' moves moves' first rest ih =>
      unfold follow at schedule
      split at schedule
      · cases schedule
      case h_2 next action =>
        have moved := move?_twin same first
        rw [action] at moved
        obtain ⟨next', action', ends⟩ := Option.map_eq_some_iff.mp moved.symm
        obtain ⟨b', schedule', last, twins⟩ := ih ends.symm schedule
        refine ⟨b', ?_, last, ?_⟩
        · simp only [follow, action', schedule']
        · simp only [moments, action, action']
          exact .cons (twins_of_hush same first) twins

theorem adds_sublist {past past' : List (Session × Move)} (twins : List.Forall₂ Twins past past')
    (quieter : List.Forall₂ Quieter past past') :
    (past.flatMap adds).Sublist (past'.flatMap adds) := by
  induction twins with
  | nil => exact .slnil
  | @cons moment moment' past past' first rest ih =>
      obtain ⟨here, later⟩ := List.forall₂_cons.mp quieter
      rw [List.flatMap_cons, List.flatMap_cons]
      exact (first.remarks here).append (ih later)

theorem verbosity_shows_in_remarks_only (retuned : List.Forall₂ Move.Retuned moves moves')
    (schedule : start.follow moves = some after) :
    ∃ after', start.follow moves' = some after' ∧ after.hush = after'.hush ∧
      List.Forall₂ Twins (start.moments moves) (start.moments moves') ∧
      (List.Forall₂ Quieter (start.moments moves) (start.moments moves') →
        ∀ logger, (after.world.lines logger).Sublist (after'.world.lines logger)) := by
  obtain ⟨after', schedule', same, twins⟩ := follow_twins retuned rfl schedule
  refine ⟨after', schedule', same, twins, ?_⟩
  intro quieter logger
  unfold World.lines
  rw [follow_adds schedule, follow_adds schedule']
  exact ((List.Sublist.refl _).append (adds_sublist twins quieter)).filterMap _

/-- Thread 2 waits too long for the main lock. The levels are set twice: on the lock, and with the
other settings while thread 2 waits. -/
def tuned (first second : Int) : List Move :=
  List.flatten [
    [.command (.bare 3) (.setLevel 0 first)],
    .start (.bare 1) 0 (.enter 0 .exclusive "update") :: List.replicate 5 (.step ⟨1⟩), [.finish ⟨1⟩],
    .start (.bare 2) 1 (.enter 0 .shared "scan") :: List.replicate 2 (.step ⟨2⟩),
    [.command (.bare 3) (.apply ⟨"warn", .second, second⟩), .advance ⟨2000000000⟩],
    .start (.bare 1) 2 (.leave 0 .exclusive) :: List.replicate 3 (.step ⟨1⟩), [.finish ⟨1⟩],
    List.replicate 3 (.step ⟨2⟩), [.finish ⟨2⟩],
    [.command (.bare 3) (.insist 0 ⟨3⟩ .shared)]]

def silent : Session := ((initial .empty).follow (tuned (-5) 0)).getD (initial .empty)

def talkative : Session := ((initial .empty).follow (tuned 3 1)).getD (initial .empty)

theorem tuned_shows_in_remarks_only :
    (initial .empty).follow (tuned (-5) 0) = some silent ∧
      (initial .empty).follow (tuned 3 1) = some talkative ∧ silent.hush = talkative.hush ∧
      (silent.world.lock 0).contentions = 1 ∧
      (silent.world.lines .standard).length = 1 ∧ (talkative.world.lines .standard).length = 6 ∧
      (silent.world.lines .standard).Sublist (talkative.world.lines .standard) := by
  have retuned : List.Forall₂ Move.Retuned (tuned (-5) 0) (tuned 3 1) := by
    refine .cons (.retune .setLevel) ?_
    iterate 10 refine .cons .same ?_
    refine .cons (.retune (.apply rfl)) ?_
    iterate 11 refine .cons .same ?_
    exact .nil
  have schedule : (initial .empty).follow (tuned (-5) 0) = some silent := rfl
  have schedule' : (initial .empty).follow (tuned 3 1) = some talkative := rfl
  have quieter : List.Forall₂ Quieter ((initial .empty).moments (tuned (-5) 0))
      ((initial .empty).moments (tuned 3 1)) := by
    rw [List.forall₂_iff_zip]
    have pairs : ∀ pair ∈ ((initial .empty).moments (tuned (-5) 0)).zip
        ((initial .empty).moments (tuned 3 1)), Quieter pair.1 pair.2 := by decide +kernel
    exact ⟨by decide +kernel, fun member => pairs _ member⟩
  obtain ⟨after', found, same, -, fewer⟩ := verbosity_shows_in_remarks_only retuned schedule
  cases schedule'.symm.trans found
  refine ⟨schedule, schedule', same, ?_, ?_, ?_, fewer quieter .standard⟩ <;> decide +kernel

end Session

end GuardedDump
