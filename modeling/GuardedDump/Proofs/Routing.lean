import GuardedDump.Proofs.Notices
import GuardedDump.Proofs.Part
import GuardedDump.Proofs.Visit

namespace GuardedDump

def Call.account? (world : World) (call : Call) : Option Account :=
  match call.tasks with
  | .demand role p _ :: _ =>
    some (world.accountOf (call.ctx.inside role.way) p fun _ => .none)
  | _ => none

def Command.account? (world : World) (ctx : Context) : Command → Option Account
  | isHeld .. => some .none
  | check .. => some .none
  | insist id thread required =>
    some ⟨(((world.lock id).check thread required ctx.callSite).map
      fun v => ⟨none, world.notice ctx v none⟩).toList, true⟩
  | writeUnguarded value _ => some (value.account ctx world)
  | writeBetween p value .. => some (world.accountOf ctx p (value.account ctx))
  | render p value => some (world.accountOfAny ctx p value)
  | format p value .. => some (world.accountOfAny ctx p value)
  | report v handler => some ⟨[⟨none, world.notice ctx v handler⟩], true⟩
  | abort v => some ⟨[⟨none, ⟨ctx, v, .exit⟩⟩], true⟩
  | _ => none

/-- What a move with these checks makes of the world, as far as it shows: the notices get to their
destinations, one after the other; a move that checks nothing only writes lines into the log. -/
def World.Tells (before : World) (notices : Option (List Notice)) (after : World) : Prop :=
  match notices with
  | some notices => World.Echoes (notices.foldl World.take before) after
  | none => ∃ t, World.Logged t before after

def World.Yields (before : World) (account? : Option Account) (after : World) : Prop :=
  match account? with
  | some account => after = before.after account
  | none => after.failures = before.failures ∧ ∃ t, World.Logged t before after

theorem World.Yields.tells {before after : World} {account? : Option Account}
    (yields : before.Yields account? after) : before.Tells (account?.map Account.notices) after := by
  cases account? with
  | none => exact yields.2
  | some account =>
      obtain rfl : after = before.after account := yields
      exact before.echoes_after account

theorem World.Yields.quiet {before after : World} (failures : after.failures = before.failures)
    (history : after.history = before.history) : before.Yields none after :=
  ⟨failures, .unknown, .of_eq history⟩

theorem World.demand_yields (world : World) (ctx : Context) (p : Precondition) :
    world.Yields (some (world.accountOf ctx p fun _ => .none)) (world.demand ctx p).2 := by
  unfold accountOf
  cases found : world.notice? ctx p with
  | none =>
      rw [demand_silent found]
      rfl
  | some notice =>
      rcases demand_failed found with ⟨-, v, refused⟩ | ⟨-, panic, refused⟩ <;> rw [refused] <;> rfl

theorem World.report_yields (world : World) (ctx : Context) (v : Violation)
    (override : Option Handler) :
    world.Yields (some ⟨[⟨none, world.notice ctx v override⟩], true⟩) (world.report ctx v override).2 :=
  (world.report_take ctx v override).1

namespace Call

variable {world world' : World} {call call' : Call}

theorem stepEnter_logged {id : LockId} {access : Access} {purpose : String} {point : EnterPoint}
    (step : stepEnter world call id access purpose point = some (world', call')) :
    World.Logged call.thread world world' := by
  cases point with
  | consult =>
      simp only [stepEnter] at step
      split at step <;> cases step <;> exact .of_eq rfl
  | ask | tally | reentered =>
      cases step
      exact world.logLine_logged ..
  | wait since =>
      simp only [stepEnter] at step
      split at step <;> cases step
      exact .of_eq rfl
  | record waited =>
      cases step
      exact .of_eq rfl

theorem stepLeave_logged {id : LockId} {access : Access} {point : LeavePoint}
    (step : stepLeave world call id access point = some (world', call')) :
    World.Logged call.thread world world' := by
  cases point with
  | drop =>
      simp only [stepLeave] at step
      split at step
      · cases step
        exact .of_eq rfl
      · split at step <;> cases step <;> exact .of_eq rfl
  | unlatch left =>
      cases step
      exact .of_eq rfl
  | remark left =>
      cases left with
      | none =>
          cases step
          exact .of_eq rfl
      | some hold =>
          cases step
          exact world.logLine_logged ..

theorem stepDemand_world (world : World) (call : Call) (role : Role) (p : Precondition)
    (value : Value) : (stepDemand world call role p value).1 =
      (world.demand (call.ctx.inside role.way) p).2 := by
  unfold stepDemand
  split <;> rename_i outcome <;> rw [outcome]

theorem step_yields (step : call.step world = some (world', call')) :
    world.Yields (call.account? world) world' := by
  unfold Call.step at step
  split at step
  · cases step
  case h_2 task rest tasks =>
    unfold account?
    rw [tasks]
    cases task with
    | enter id access purpose point =>
        exact ⟨(stepEnter_touches step).failures, _, stepEnter_logged
          (show stepEnter world { call with tasks := rest } id access purpose point = _ from step)⟩
    | leave id access point =>
        exact ⟨(stepLeave_touches step).failures, _, stepLeave_logged
          (show stepLeave world { call with tasks := rest } id access point = _ from step)⟩
    | close id =>
        simp only [stepClose, Option.some.injEq] at step
        split at step <;> cases step
        · exact .quiet rfl rfl
        · exact ⟨rfl, _, world.logLine_logged call.thread _ (some _)⟩
    | retire id =>
        cases step
        exact .quiet rfl rfl
    | survey selection =>
        simp only [stepSurvey, Option.some.injEq] at step
        split at step <;> cases step <;> exact .quiet rfl rfl
    | visit id selection =>
        simp only [stepVisit, Option.some.injEq] at step
        split at step <;> cases step <;> exact .quiet rfl rfl
    | demand role p value =>
        have same := stepDemand_world world { call with tasks := rest } role p value
        rw [Option.some.inj step] at same
        have checked := world.demand_yields (call.ctx.inside role.way) p
        rw [← show world' = (world.demand (call.ctx.inside role.way) p).2 from same] at checked
        exact checked
    | dump role p value =>
        have same := stepDump_world world { call with tasks := rest } role p value
        rw [Option.some.inj step] at same
        exact .quiet (congrArg World.failures same) (congrArg World.history same)

end Call

namespace Session

theorem applied_history (session : Session) (settings : Settings) :
    (session.applied settings).2.world.history = session.world.history :=
  applied_keeps World.history (fun _ _ _ => rfl) session settings

theorem applied_failures (session : Session) (settings : Settings) :
    (session.applied settings).2.world.failures = session.world.failures :=
  applied_keeps World.failures (fun _ _ _ => rfl) session settings

theorem perform_yields (session : Session) (ctx : Context) (command : Command) :
    session.world.Yields (command.account? session.world ctx)
      (session.perform ctx command).2.world := by
  cases command with
  | isHeld | check => rfl
  | insist id thread required =>
      simp only [Command.account?, perform]
      cases (session.world.lock id).check thread required ctx.callSite with
      | none => rfl
      | some v =>
          simp only [(ofResult_world ..).1]
          exact session.world.report_yields ctx v none
  | writeUnguarded value sink =>
      have left := (session.world.writeUnguarded_settled ctx value (.ofSink sink)).left
      simp only [perform]
      split <;> rename_i result <;> rw [result] at left <;> exact left
  | writeBetween p value lead tail sink =>
      have left := session.world.writeBetween_left ctx p value lead tail (.ofSink sink)
      simp only [perform]
      split <;> rename_i result <;> rw [result] at left <;> exact left
  | render p value =>
      have left := session.world.render_left ctx p value
      simp only [perform]
      split <;> rename_i result <;> rw [result] at left <;> exact left
  | format p value verb lead tail => exact session.world.format_left ctx p value verb lead tail
  | report v handler =>
      simp only [perform, (ofResult_world ..).1]
      exact session.world.report_yields ctx v handler
  | abort v => rfl
  | warn key text =>
      simp only [perform, World.warn]
      split
      · exact .quiet rfl rfl
      · exact ⟨rfl, ctx.thread, _, rfl, fun event member => ⟨_, _, List.mem_singleton.mp member⟩⟩
  | enterUnknown | restore =>
      simp only [perform]
      split <;> exact .quiet rfl rfl
  | apply settings => exact .quiet (session.applied_failures settings) (session.applied_history settings)
  | readAndApply reader environment =>
      simp only [perform]
      split
      · exact .quiet rfl rfl
      · exact .quiet (session.applied_failures _) (session.applied_history _)
  | _ => exact .quiet rfl rfl

def account? (session : Session) : Move → Option Account
  | .step t => (callOf session.pending t).bind (Call.account? session.world)
  | .command ctx command => command.account? session.world ctx
  | _ => none

def notices? (session : Session) (move : Move) : Option (List Notice) :=
  (session.account? move).map Account.notices

theorem move?_yields {session after : Session} {move : Move}
    (action : session.move? move = some after) :
    session.world.Yields (session.account? move) after.world := by
  cases move with
  | start ctx tag operation =>
      simp only [move?] at action
      split at action <;> cases action
      exact .quiet rfl rfl
  | step t =>
      simp only [move?] at action
      split at action <;> cases action
      case h_2 world pending stepped =>
        obtain ⟨call, call', found, step, -, -⟩ := stepOf_callOf stepped
        simp only [account?, found, Option.bind_some]
        exact Call.step_yields step
  | finish t =>
      simp only [move?] at action
      split at action <;> cases action
      exact .quiet rfl rfl
  | command ctx command =>
      simp only [move?] at action
      split at action <;> cases action
      exact session.perform_yields ctx command
  | advance d =>
      cases action
      exact .quiet rfl rfl

theorem move?_tells {session after : Session} {move : Move}
    (action : session.move? move = some after) :
    session.world.Tells (session.notices? move) after.world :=
  (move?_yields action).tells

end Session

def Event.isLogged (event : Event) : Bool :=
  match event.happening with
  | .logged .. => true
  | _ => false

def Event.isCall (handler : Handler) (event : Event) : Bool :=
  match event.happening with
  | .delivered taker _ => taker = handler
  | _ => false

def Event.isExit (event : Event) : Bool :=
  match event.happening with
  | .exited _ => true
  | _ => false

theorem Event.isCall_not_logged (handler : Handler) {event : Event}
    (call : event.isCall handler = true) : event.isLogged = false := by
  unfold isCall at call
  unfold isLogged
  split at call
  case h_1 found => rw [found]
  case h_2 => cases call

theorem Event.isExit_not_logged {event : Event} (exit : event.isExit = true) :
    event.isLogged = false := by
  unfold isExit at exit
  unfold isLogged
  split at exit
  case h_1 found => rw [found]
  case h_2 => cases exit

def Notice.event? (notice : Notice) : Option Event :=
  match notice.destination with
  | .warning => none
  | .handler handler => some ⟨notice.ctx.thread, .delivered handler notice.violation⟩
  | .exit => some ⟨notice.ctx.thread, .exited 1⟩

namespace World

variable {before after : World}

def outcomes (world : World) : List Event :=
  world.history.filter fun event => !event.isLogged

theorem countP_outcomes (world : World) {kind : Event → Bool}
    (shown : ∀ {event}, kind event = true → event.isLogged = false) :
    world.outcomes.countP kind = world.history.countP kind := by
  unfold outcomes
  rw [List.countP_filter]
  apply List.countP_congr
  intro event _
  have kept := @shown event
  cases chosen : kind event <;> simp_all

theorem outcomes_take (world : World) (notice : Notice) :
    (world.take notice).outcomes = world.outcomes ++ notice.event?.toList := by
  cases chosen : notice.destination with
  | warning =>
      simp only [take, Notice.event?, chosen, warn]
      split
      · exact (List.append_nil _).symm
      · simp [outcomes, log, emit, Event.isLogged]
  | handler handler => simp [take, Notice.event?, chosen, outcomes, emit, Event.isLogged]
  | exit => simp [take, Notice.event?, chosen, outcomes, abort, log, emit, Event.isLogged]

theorem outcomes_takeAll (world : World) (notices : List Notice) :
    (notices.foldl take world).outcomes = world.outcomes ++ notices.filterMap Notice.event? := by
  induction notices generalizing world with
  | nil => exact (List.append_nil _).symm
  | cons notice more ih =>
      rw [List.foldl_cons, ih, outcomes_take, List.append_assoc]
      cases made : notice.event? <;> simp [made]

theorem hooks_takeAll (world : World) (notices : List Notice) :
    (notices.foldl take world).hooks = world.hooks := by
  induction notices generalizing world with
  | nil => rfl
  | cons notice more ih => rw [List.foldl_cons, ih, hooks_take]

theorem history_take (world : World) (notice : Notice) :
    world.history <+: (world.take notice).history := by
  cases chosen : notice.destination with
  | warning =>
      simp only [take, chosen, warn]
      split
      · exact List.prefix_rfl
      · exact List.prefix_append ..
  | handler handler =>
      simp only [take, chosen]
      exact List.prefix_append ..
  | exit =>
      simp only [take, chosen, abort, log, emit, List.append_assoc]
      exact List.prefix_append ..

theorem history_takeAll (world : World) (notices : List Notice) :
    world.history <+: (notices.foldl take world).history := by
  induction notices generalizing world with
  | nil => exact List.prefix_rfl
  | cons notice more ih => exact (world.history_take notice).trans (ih _)

structure Farewell (notice : Notice) (line : String) : Prop where
  closed : line.toList.getLast? = some '\n'
  text : ∃ ending ∈ ["", "\n"], line = "FATAL: lock invariant violated: " ++ notice.violation.text ++
    "\nat " ++ notice.violation.finding.caller ++ "\n" ++ Trace.prune notice.ctx.trace ++ ending

theorem farewell (notice : Notice) :
    Farewell notice (logText (fatalText notice.violation notice.ctx.trace)) := by
  obtain ⟨closed, same | longer⟩ := logText_closes (fatalText notice.violation notice.ctx.trace)
  · refine ⟨closed, "", by simp, ?_⟩
    rw [same, String.append_empty]
    rfl
  · refine ⟨closed, "\n", by simp, ?_⟩
    rw [longer]
    rfl

theorem Tells.farewell {earlier later : List Notice} {notice : Notice}
    (tells : before.Tells (some (earlier ++ notice :: later)) after)
    (exit : notice.destination = .exit) :
    ∃ line, Farewell notice line ∧ ∃ behind, after.history = (earlier.foldl take before).history ++
      ⟨notice.ctx.thread, .logged (before.hooks.logger.getD .standard) line⟩ ::
      ⟨notice.ctx.thread, .exited 1⟩ :: behind := by
  refine ⟨_, World.farewell notice, ?_⟩
  have history : after.history = ((earlier ++ notice :: later).foldl take before).history :=
    tells.history
  rw [List.foldl_append, List.foldl_cons] at history
  obtain ⟨behind, grown⟩ := ((earlier.foldl take before).take notice).history_takeAll later
  refine ⟨behind, ?_⟩
  rw [history, ← grown]
  simp only [take, exit, abort, log, emit, hooks_takeAll, List.append_assoc, List.cons_append,
    List.nil_append]
  rfl

theorem Logged.outcomes {t : Thread} (logged : Logged t before after) :
    after.outcomes = before.outcomes := by
  obtain ⟨lines, history, all⟩ := logged
  have none : lines.filter (fun event => !event.isLogged) = [] := by
    rw [List.filter_eq_nil_iff]
    intro event member
    obtain ⟨logger, text, rfl⟩ := all event member
    simp [Event.isLogged]
  unfold World.outcomes
  rw [history, List.filter_append, none, List.append_nil]

theorem Tells.outcomes {notices : Option (List Notice)} (tells : before.Tells notices after) :
    after.outcomes = before.outcomes ++ (notices.getD []).filterMap Notice.event? := by
  cases notices with
  | none =>
      obtain ⟨t, logged⟩ := tells
      rw [logged.outcomes]
      exact (List.append_nil _).symm
  | some notices =>
      rw [show after.outcomes = (notices.foldl take before).outcomes from
        congrArg (List.filter _) tells.history]
      exact before.outcomes_takeAll notices

end World

namespace Session

variable {session after : Session} {moves : List Move}

def reports (moments : List (Session × Move)) : List Notice :=
  moments.flatMap fun moment => (moment.1.notices? moment.2).getD []

theorem follow_tells (schedule : session.follow moves = some after) :
    (∀ moment ∈ session.moments moves, ∃ next, moment.1.move? moment.2 = some next ∧
      moment.1.world.Tells (moment.1.notices? moment.2) next.world) ∧
    after.world.outcomes = session.world.outcomes ++
      (reports (session.moments moves)).filterMap Notice.event? := by
  induction moves generalizing session with
  | nil =>
      cases schedule
      exact ⟨fun _ member => absurd member List.not_mem_nil, (List.append_nil _).symm⟩
  | cons move more ih =>
      unfold follow at schedule
      split at schedule
      · cases schedule
      case h_2 next action =>
        have tells := move?_tells action
        obtain ⟨later, outcomes⟩ := ih schedule
        simp only [moments, action]
        constructor
        · intro moment member
          rcases List.mem_cons.mp member with rfl | behind
          · exact ⟨next, action, tells⟩
          · exact later moment behind
        · rw [outcomes, tells.outcomes, List.append_assoc, ← List.filterMap_append]
          rfl

structure Routed (session : Session) (moves : List Move) (after : Session) : Prop where
  each : ∀ moment ∈ session.moments moves, ∃ next, moment.1.move? moment.2 = some next ∧
    moment.1.world.Tells (moment.1.notices? moment.2) next.world
  outcomes : after.world.outcomes = session.world.outcomes ++
    (reports (session.moments moves)).filterMap Notice.event?
  farewell : ∀ moment ∈ session.moments moves, ∀ earlier notice later,
    moment.1.notices? moment.2 = some (earlier ++ notice :: later) → notice.destination = .exit →
      ∃ next line behind, moment.1.move? moment.2 = some next ∧ World.Farewell notice line ∧
        next.world.history = (earlier.foldl World.take moment.1.world).history ++
          ⟨notice.ctx.thread, .logged (moment.1.world.hooks.logger.getD .standard) line⟩ ::
          ⟨notice.ctx.thread, .exited 1⟩ :: behind
  calls : ∀ handler, after.world.history.countP (Event.isCall handler) =
    session.world.history.countP (Event.isCall handler) +
      (reports (session.moments moves)).countP fun notice => notice.destination = .handler handler
  exits : after.world.history.countP Event.isExit =
    session.world.history.countP Event.isExit +
      (reports (session.moments moves)).countP fun notice => notice.destination = .exit

theorem violations_routed (schedule : session.follow moves = some after) :
    session.Routed moves after := by
  obtain ⟨each, outcomes⟩ := follow_tells schedule
  refine ⟨each, outcomes, ?_, ?_, ?_⟩
  · intro moment member earlier notice later found exit
    obtain ⟨next, action, tells⟩ := each moment member
    rw [found] at tells
    obtain ⟨line, farewell, behind, history⟩ := tells.farewell exit
    exact ⟨next, line, behind, action, farewell, history⟩
  · intro handler
    have calls (world : World) := world.countP_outcomes (Event.isCall_not_logged handler)
    rw [← calls, ← calls, outcomes, List.countP_append, List.countP_filterMap]
    congr 1
    apply List.countP_congr
    intro notice _
    unfold Notice.event?
    cases notice.destination <;> simp [Event.isCall]
  · have exits (world : World) := world.countP_outcomes Event.isExit_not_logged
    rw [← exits, ← exits, outcomes, List.countP_append, List.countP_filterMap]
    congr 1
    apply List.countP_congr
    intro notice _
    unfold Notice.event?
    cases notice.destination <;> simp [Event.isExit]

def layered : Value :=
  .guarded .direct { checker := .rule fun _ => none }
    (.guarded .direct { handler := some ⟨"own", none⟩ } .done .done)
    (.guarded .direct {} .done .done)

/-- Thread 1 holds nothing. It renders a value while the process has a handler, writes after that
handler has gone, and then insists on a hold twice in the same place under the warning response. -/
def trespass : List Move := [
  .command (.bare 1) (.setHandler (some ⟨"process", none⟩)),
  .command (.bare 1) (.render none layered),
  .command (.bare 1) (.restore 0),
  .start (.bare 1) 0 (.write {} layered .unlimited), .step ⟨1⟩, .finish ⟨1⟩,
  .command (.bare 1) (.setResponse .warn),
  .command (.bare 1) (.insist 0 ⟨1⟩ .shared), .command (.bare 1) (.insist 0 ⟨1⟩ .shared),
  .command (.bare 1) (.check 0 ⟨1⟩ .exclusive)]

def trespassed : Session := ((initial .empty).follow trespass).getD (initial .empty)

theorem trespass_routed :
    (initial .empty).Routed trespass trespassed ∧
      (reports ((initial .empty).moments trespass)).map Notice.destination =
        [.handler ⟨"own", none⟩, .handler ⟨"process", none⟩, .exit, .warning, .warning] ∧
      trespassed.world.history.countP Event.isExit = 1 ∧
      trespassed.world.history.countP Event.isLogged = 2 := by
  refine ⟨violations_routed rfl, ?_, ?_, ?_⟩ <;> decide +kernel

end Session

end GuardedDump
